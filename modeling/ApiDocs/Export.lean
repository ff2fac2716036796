import ApiDocs.Files.Write
import ApiDocs.Index.Scan
import ApiDocs.Report.Compile
import ApiDocs.Syntax.Parse

/-! A whole run: the units of a directory, or two sample units, become a report. -/

namespace ApiDocs.Index

def SourceUnit.ofText (text : String) (path : Option String) : SourceUnit :=
  ⟨Source.ofText text, path, Syntax.parse text⟩

end ApiDocs.Index

namespace ApiDocs.Export

open Index Files

def samplePackage : String :=
  "\n".intercalate ["", "/** Example package. */", "package com.acme.demo;", ""]

def sampleTypes : String := "\n".intercalate
  ["",
   "package com.acme.demo;",
   "",
   "import java.util.*;",
   "",
   "/**",
   " * Keeps track of users.",
   " */",
   "public class UserService implements AutoCloseable \x7b",
   "    private final UserRepository repo = new UserRepository();",
   "",
   "    public UserService() \x7b",
   "        System.out.println(\"UserService constructed\");",
   "    \x7d",
   "",
   "    /**",
   "     * Registers a new user.",
   "     *",
   "     * @param name the user's name",
   "     * @return the created user",
   "     */",
   "    public User addUser(String name) \x7b",
   "        repo.save(name);",
   "        return new User(name.trim());",
   "    \x7d",
   "",
   "    @Override",
   "    public void close() \x7b",
   "    \x7d",
   "\x7d",
   "",
   "class UserRepository \x7b",
   "    List<String> store = new ArrayList<>();",
   "    public void save(String name) \x7b store.add(name); \x7d",
   "    public List<String> findAll() \x7b return store; \x7d",
   "\x7d",
   "",
   "class User \x7b",
   "    private final String name;",
   "    public User(String name) \x7b this.name = name; \x7d",
   "\x7d",
   ""]

def samples : List SourceUnit :=
  [.ofText samplePackage (some "package-info.java"), .ofText sampleTypes (some "<sample>")]

/-- What is to be documented. -/
inductive Input where
  | samples
  | directory (root : String) (listing : Option Listing)

def readUnit : UnitReader := fun text path => .ofText text (some path)

/-- The index of the input, and what was told while it grew. -/
def collect : Input → Index × List Event
  | .samples =>
    let step := Index.empty.addAll Export.samples
    (step.index, step.events)
  | .directory root listing =>
    let step := Index.empty.scan readUnit root listing
    (step.index, step.events)

structure Outcome where
  events : List Event
  report : Except UnnamedReference Report

def run (settings : Settings) (input : Input) : Outcome :=
  let (index, events) := collect input
  let catalog := index.catalog
  ⟨events ++ Report.compileEvents catalog, Report.compile settings catalog⟩

end ApiDocs.Export
