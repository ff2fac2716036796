/-! Paths, and a directory as a value: names with what they stand for, in no particular order. -/

namespace ApiDocs

/-- A path in normal form: single dots, doubled slashes and a slash at the end mean nothing; a
double dot stays, since what it leads to depends on the directory before it. -/
structure Path where
  /-- The slashes in front: none, one, or exactly two. -/
  root : String := ""
  parts : List String := []
deriving DecidableEq, Repr

namespace Path

def rootOf (s : String) : String :=
  match (s.toList.takeWhile (· == '/')).length with
  | 0 => ""
  | 2 => "//"
  | _ => "/"

def ofString (s : String) : Path where
  root := rootOf s
  parts :=
    ((s.toList.splitOn '/').map String.ofList).filter fun p => p ≠ "" && p ≠ "."

def toString (p : Path) : String :=
  if p.root.isEmpty && p.parts.isEmpty then "." else p.root ++ "/".intercalate p.parts

/-- A name below a directory, which is kept as it is spelled. -/
def below (directory name : String) : String :=
  if directory.isEmpty || directory.endsWith "/" then directory ++ name
  else directory ++ "/" ++ name

end Path

namespace Files

inductive Entry where
  | file (bytes : List UInt8)
  /-- Listed as a file, but there is nothing to open. -/
  | dangling
  | dir (entries : List (String × Entry))

abbrev Listing := List (String × Entry)

/-- A known name keeps its place. -/
def putName (name : String) (entry : Entry) : Listing → Listing
  | [] => [(name, entry)]
  | e :: rest => if e.1 = name then (name, entry) :: rest else e :: putName name entry rest

def directoryOf : Option Entry → Listing
  | some (.dir entries) => entries
  | _ => []

/-- Puts an entry at a path of names, making the directories on the way to it. -/
def put : List String → Entry → Listing → Listing
  | [], _, l => l
  | [name], entry, l => putName name entry l
  | name :: rest, entry, l =>
    putName name (.dir (put rest entry (directoryOf (l.lookup name)))) l

/-- Makes a directory, unless it is there. -/
def makeDirectory (names : List String) (l : Listing) : Listing :=
  match names with
  | [] => l
  | name :: rest =>
    putName name (.dir (makeDirectory rest (directoryOf (l.lookup name)))) l

def find? : List String → Listing → Option Entry
  | [], l => some (.dir l)
  | name :: rest, l =>
    match l.lookup name with
    | none => none
    | some (.dir entries) => find? rest entries
    | some e => if rest.isEmpty then some e else none

/-- A directory reached from the top: the names that lead down to it, or how far it lies above. -/
inductive Place where
  | within (names : List String)
  | above (levels : Nat)

/-- What is above the top is taken to hold nothing else. -/
def Place.enter (top : Listing) : Place → String → Option Place
  | .within names, name =>
    if name = ".." then
      some (if names.isEmpty then .above 1 else .within names.dropLast)
    else
      match find? (names ++ [name]) top with
      | some (.dir _) => some (.within (names ++ [name]))
      | _ => none
  | .above levels, name => if name = ".." then some (.above (levels + 1)) else none

def Place.walk (top : Listing) (place : Place) (parts : List String) : Option Place :=
  parts.foldlM (Place.enter top) place

/-- The directory that a path leads to from the top. -/
def resolve (top : Listing) (p : Path) : Option Place :=
  if p.root.isEmpty then Place.walk top (.within []) p.parts else none

def Place.listing (top : Listing) : Place → Listing
  | .within names => directoryOf (find? names top)
  | .above _ => []

/-- The entries of the directory that a path names; an empty path names none. -/
def openDirectory (top : Listing) (path : String) : Option Listing :=
  if path.isEmpty then none else (resolve top (Path.ofString path)).map (Place.listing top)

mutual

/-- The paths of the files that can be opened, below a directory. -/
def Entry.filePaths (path : String) : Entry → List String
  | .file _ => [path]
  | .dangling => []
  | .dir entries => filePathsIn path entries

def filePathsIn (directory : String) : List (String × Entry) → List String
  | [] => []
  | (name, e) :: rest => e.filePaths (Path.below directory name) ++ filePathsIn directory rest

end

def filePaths (l : Listing) : List String :=
  (filePathsIn "" l).mergeSort fun a b => decide (a ≤ b)

end Files

end ApiDocs
