import ApiDocs.Proofs.Files.Trail
import ApiDocs.Proofs.Index.Skipped

/-! Scanning a directory. The listing's order does not matter, each source file is tried once, and
a file that fails changes nothing for the files after it. -/

namespace ApiDocs

/-- The file that a warning is about. -/
def Event.skippedPath? : Event → Option String
  | .fileSkipped path _ => some path
  | _ => none

def warnings (l : List Event) : List Event := l.filter fun e => e.level = .warning

theorem warnings_append (l l' : List Event) : warnings (l ++ l') = warnings l ++ warnings l' :=
  List.filter_append l l'

namespace Index

open Files

/-! ## Units do not warn -/

theorem enter_quiet (scope : Scope) (x : Index) (d : Declaration) :
    warnings (x.enter scope d).events = [] := by
  unfold enter
  cases typeDecl scope d with
  | error f => rfl
  | ok t => by_cases known : x.types.contains d.qualifiedName = true <;> simp [known] <;> rfl

theorem andThen_quiet {s : Step (Option Fault)} {next : Index → Step (Option Fault)}
    (first : warnings s.events = []) (others : ∀ y, warnings (next y).events = []) :
    warnings (s.andThen next).events = [] := by
  cases hs : s.result with
  | some f => simpa [Step.andThen, hs] using first
  | none => simp [Step.andThen, hs, warnings_append, first, others]

theorem enterAll_quiet (scope : Scope) (x : Index) (l : List Declaration) :
    warnings (x.enterAll scope l).events = [] := by
  induction l generalizing x with
  | nil => rfl
  | cons d rest ih => exact andThen_quiet (enter_quiet scope x d) ih

theorem add_quiet (x : Index) (u : SourceUnit) : warnings (x.add u).events = [] := by
  unfold add
  cases packageOf u with
  | error f => rfl
  | ok package =>
    cases u.outlines with
    | error f => rfl
    | ok l =>
      refine andThen_quiet ?_ fun _ => rfl
      rw [walkAll_eq_enterAll]
      exact enterAll_quiet _ _ _

/-! ## One file -/

/-- The unit of a file that can be opened. -/
def unitOf? (read : UnitReader) (f : Found) : Option SourceUnit :=
  f.bytes.map fun bytes => read (decodeFile bytes) f.path

theorem addFile_index_of_unit (read : UnitReader) (x : Index) (f : Found) :
    (x.addFile read f).index = (x.addAll (unitOf? read f).toList).index := by
  unfold addFile unitOf?
  cases f.bytes with
  | none => rfl
  | some bytes =>
    simp only [Option.map_some, Option.toList_some, addAll]
    cases (x.add (read (decodeFile bytes) f.path)).result <;> rfl

theorem addFile_warned (read : UnitReader) (x : Index) (f : Found) :
    (warnings (x.addFile read f).events).map Event.skippedPath? =
      (x.addFile read f).result.toList.map some := by
  unfold addFile
  cases f.bytes with
  | none => rfl
  | some bytes =>
    have quiet := add_quiet x (read (decodeFile bytes) f.path)
    cases fault : (x.add (read (decodeFile bytes) f.path)).result with
    | none => simp [fault, quiet]
    | some f' =>
      simp only [fault, warnings_append, quiet]
      rfl

/-! ## All files -/

theorem addAll_append_index (x : Index) (us vs : List SourceUnit) :
    (x.addAll (us ++ vs)).index = ((x.addAll us).index.addAll vs).index := by
  induction us generalizing x with
  | nil => rfl
  | cons u rest ih => exact ih (x.add u).index

theorem addFiles_index_of_units (read : UnitReader) (x : Index) (fs : List Found) :
    (x.addFiles read fs).index = (x.addAll (fs.filterMap (unitOf? read))).index := by
  induction fs generalizing x with
  | nil => rfl
  | cons f rest ih =>
    have split : (f :: rest).filterMap (unitOf? read) =
        (unitOf? read f).toList ++ rest.filterMap (unitOf? read) := by
      rw [List.filterMap_cons]
      cases unitOf? read f <;> rfl
    rw [addFiles, split, addAll_append_index, ← addFile_index_of_unit]
    exact ih (x.addFile read f).index

theorem addFiles_warned (read : UnitReader) (x : Index) (fs : List Found) :
    (warnings (x.addFiles read fs).events).map Event.skippedPath? =
      (x.addFiles read fs).result.skipped.map some := by
  induction fs generalizing x with
  | nil => rfl
  | cons f rest ih =>
    have first := addFile_warned read x f
    have others := ih (x.addFile read f).index
    simp only [addFiles, warnings_append, List.map_append, first, others]
    cases (x.addFile read f).result <;> rfl

theorem count_add_skipped (read : UnitReader) (x : Index) (fs : List Found) :
    (x.addFiles read fs).result.count + (x.addFiles read fs).result.skipped.length = fs.length := by
  rw [addFiles_result, List.length_map, Nat.add_comm]
  exact (List.length_eq_length_filter_add (isSkipped read)).symm

/-- The step takes the files one after the other, each once: it applies the units of those that can
be opened, skips those that cannot and those with a fault, each with a warning, and counts the
others. -/
structure Visits (read : UnitReader) (x : Index) (fs : List Found) (s : Step Scan) : Prop where
  each : s = x.addFiles read fs
  index : s.index = (x.addAll (fs.filterMap (unitOf? read))).index
  skipped : s.result.skipped = (fs.filter (isSkipped read)).map Found.path
  warned : (warnings s.events).map Event.skippedPath? = s.result.skipped.map some
  counted : s.result.count + (warnings s.events).length = fs.length

theorem visits_addFiles (read : UnitReader) (x : Index) (fs : List Found) :
    Visits read x fs (x.addFiles read fs) := by
  have warned := addFiles_warned read x fs
  have amount : (warnings (x.addFiles read fs).events).length =
      (x.addFiles read fs).result.skipped.length := by
    simpa using congrArg List.length warned
  refine ⟨rfl, addFiles_index_of_units read x fs, ?_, warned, ?_⟩
  · rw [addFiles_result]
  · rw [amount, count_add_skipped]

/-- A scan of a directory with distinct names comes out the same, in every respect, however the
directory and those below it are listed. It visits the source files at any depth, each once: the
directory's own by name, then those of its subdirectories, by the names of these and in each
likewise. -/
theorem scan_of_distinctNames (read : UnitReader) (root : String) {l : Listing}
    (distinct : DistinctNames l) :
    (∀ l', Relisted l l' → ∀ x : Index,
        x.scan read root (some l') = x.scan read root (some l)) ∧
      ∃ trails, SourceTrails l trails ∧ ∀ x : Index,
        Visits read x (trails.map (foundAt root l)) (x.scan read root (some l)) := by
  constructor
  · intro l' relisted x
    have found : sourceFiles root l' = sourceFiles root l := by
      rw [sourceFiles, sourceFiles, walk_eq_of_relisted relisted distinct]
    exact congrArg (x.addFiles read) found
  · obtain ⟨trails, source, found⟩ := exists_sourceTrails distinct
    refine ⟨trails, source, fun x => ?_⟩
    rw [← found root]
    exact visits_addFiles read x (sourceFiles root l)

/-- A class with a name of one letter and nothing in it. -/
def emptyClassTree : Node :=
  .mk "program" 0 9 true none
    [.mk "class_declaration" 0 9 true none
      [.mk "identifier" 6 7 true (some "name") [], .mk "class_body" 7 9 true (some "body") []]]

/-- Tells the text with a fault from texts of one empty class. -/
def nestedReader : UnitReader := fun text path =>
  ⟨Source.ofText text, some path, if text = faultyText then faultyTree else emptyClassTree⟩

def textFile (text : String) : Entry := .file (Text.Utf8.encode text.toList)

/-- Files, a directory with source files of which one has a fault and one cannot be opened, and a
directory that has the name of a source file. -/
def nestedListing : Listing :=
  [("a", .dir [("C.java", textFile faultyText), ("D.java", .dangling),
      ("E.java", textFile "class E{}")]),
   ("a.java", .dir []), ("b.java", textFile "class B{}"), ("b.txt", .file [])]

def nestedListing' : Listing :=
  [("a.java", .dir []),
   ("a", .dir [("D.java", .dangling), ("C.java", textFile faultyText),
      ("E.java", textFile "class E{}")]),
   ("b.java", textFile "class B{}"), ("b.txt", .file [])]

theorem distinctNames_nestedListing : DistinctNames nestedListing := by
  simp [nestedListing, textFile, distinctNames_cons, distinctNames_nil]

theorem relisted_nestedListing : Relisted nestedListing nestedListing' := by
  exact .trans (.inside "a" (.swap _ _ _) (.refl _)) (.swap _ _ _)

theorem walk_nestedListing (directory : String) : Files.walk directory nestedListing =
    [["b.java"], ["b.txt"], ["a", "C.java"], ["a", "D.java"], ["a", "E.java"]].map
      (foundAt directory nestedListing) := by
  rw [Files.walk, nestedListing, inOrder_of_sorted (by rw [names_branches]; decide)]
  simp only [branches, Entry.branch]
  -- the two directories inside list their entries by name as well
  rw [inOrder_of_sorted (by simp only [List.map, name_branch]; decide), inOrder_of_sorted .nil]
  rfl

/-- What the file with the fault holds before its fault is there, and the file after it is read. -/
theorem scan_of_distinctNames_nested :
    DistinctNames nestedListing ∧ Relisted nestedListing nestedListing' ∧
      (scan nestedReader empty "root" (some nestedListing)).result.count = 2 ∧
      (scan nestedReader empty "root" (some nestedListing)).result.skipped =
        ["root/a/C.java", "root/a/D.java"] ∧
      (scan nestedReader empty "root" (some nestedListing)).index.packages.names = ["p"] ∧
      (scan nestedReader empty "root" (some nestedListing)).index.types.names =
        ["B", "p.A", "E"] ∧
      (∀ l', Relisted nestedListing l' → ∀ x : Index,
        x.scan nestedReader "root" (some l') = x.scan nestedReader "root" (some nestedListing)) ∧
      ∃ trails, SourceTrails nestedListing trails ∧ ∀ x : Index,
        Visits nestedReader x (trails.map (foundAt "root" nestedListing))
          (x.scan nestedReader "root" (some nestedListing)) := by
  refine ⟨distinctNames_nestedListing, relisted_nestedListing, ?_, ?_, ?_, ?_,
    scan_of_distinctNames nestedReader "root" distinctNames_nestedListing⟩
  all_goals
    rw [scan, Option.map_some, sourceFiles, walk_nestedListing]
    decide +kernel

end Index

end ApiDocs
