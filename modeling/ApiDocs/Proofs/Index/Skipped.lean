import ApiDocs.Index.Scan
import ApiDocs.Proofs.Index.History

/-! Skipped files. One that cannot be opened leaves no trace, but one whose unit has a fault leaves
behind all that was entered before the fault: its package, and its types up to the one with the
fault. It is not counted, and yet the index is not the one without it. -/

namespace ApiDocs

namespace Index

open Files

/-- What the unit of a file contributes. -/
def brought (read : UnitReader) (f : Found) : Contribution :=
  f.bytes.elim {} fun bytes => (read (decodeFile bytes) f.path).contribution

def isSkipped (read : UnitReader) (f : Found) : Bool :=
  f.bytes.isNone || (brought read f).fault.isSome

def Contribution.packageName? (c : Contribution) : Option String :=
  c.package.map Package.qualifiedName

def Contribution.typeNames (c : Contribution) : List String :=
  c.types.map fun t => t.2.qualifiedName

/-- The fault does not matter. -/
def takeIn (x : Index) (c : Contribution) : Index where
  packages := c.package.elim x.packages (addPackage x.packages)
  types := x.types.putNewAll (named (c.types.map Prod.snd))

theorem names_named (c : Contribution) :
    (named (c.types.map Prod.snd)).map Prod.fst = c.typeNames := by
  simp [named, Contribution.typeNames]

/-! ## One file -/

theorem add_index (x : Index) (u : SourceUnit) : (x.add u).index = x.takeIn u.contribution :=
  calc (x.add u).index
    _ = ⟨(x.add u).index.packages, (x.add u).index.types⟩ := rfl
    _ = x.takeIn u.contribution := by rw [add_packages, add_types]; rfl

theorem addFile_index (read : UnitReader) (x : Index) (f : Found) :
    (x.addFile read f).index = x.takeIn (brought read f) := by
  unfold addFile brought
  cases f.bytes with
  | none => rfl
  | some bytes =>
    rw [Option.elim_some, ← add_index]
    cases h : (x.add (read (decodeFile bytes) f.path)).result <;> simp [h]

theorem addFile_result (read : UnitReader) (x : Index) (f : Found) :
    (x.addFile read f).result = if isSkipped read f then some f.path else none := by
  unfold addFile isSkipped brought
  cases f.bytes with
  | none => rfl
  | some bytes =>
    have fault := add_result x (read (decodeFile bytes) f.path)
    cases h : (read (decodeFile bytes) f.path).contribution.fault <;> simp [fault, h]

/-- Nothing in the contribution is news to the index. -/
structure Knows (x : Index) (c : Contribution) : Prop where
  package : ∀ p, c.package = some p → p.qualifiedName ∈ x.packages.names ∧
    ∀ d, p.comment = some d → x.packages.get? p.qualifiedName = some (some d)
  types : ∀ name ∈ c.typeNames, name ∈ x.types.names

theorem addPackage_eq_self_iff {t : Table (Option Comment)} {p : Package} :
    addPackage t p = t ↔ p.qualifiedName ∈ t.names ∧
      ∀ d, p.comment = some d → t.get? p.qualifiedName = some (some d) := by
  unfold addPackage
  cases hc : p.comment with
  | some d =>
    have known : t.get? p.qualifiedName = some (some d) → p.qualifiedName ∈ t.names := by
      intro found
      by_contra new
      simp [Table.get?_eq_none_iff.mpr new] at found
    simpa [Table.put_eq_self_iff] using known
  | none =>
    by_cases known : p.qualifiedName ∈ t.names
    · simp [known, Table.contains]
    · have new : t.get? p.qualifiedName = none := Table.get?_eq_none_iff.mpr known
      simp [known, Table.contains, Table.put_eq_self_iff, new]

/-- An index stays the same just when there is no news for it. -/
theorem takeIn_eq_self_iff {x : Index} {c : Contribution} : x.takeIn c = x ↔ Knows x c := by
  have types : x.types.putNewAll (named (c.types.map Prod.snd)) = x.types ↔
      ∀ name ∈ c.typeNames, name ∈ x.types.names := by
    rw [Table.putNewAll_eq_self_iff, names_named]
  have packages : c.package.elim x.packages (addPackage x.packages) = x.packages ↔
      ∀ p, c.package = some p → p.qualifiedName ∈ x.packages.names ∧
        ∀ d, p.comment = some d → x.packages.get? p.qualifiedName = some (some d) := by
    cases c.package with
    | none => simp
    | some p => simp only [Option.elim_some, addPackage_eq_self_iff, Option.some.injEq, forall_eq']
  constructor
  · intro same
    exact ⟨packages.mp (congrArg Index.packages same), types.mp (congrArg Index.types same)⟩
  · intro h
    rw [takeIn, packages.mpr h.package, types.mpr h.types]

/-! ## A run -/

theorem addFiles_index (read : UnitReader) (x : Index) (fs : List Found) :
    (x.addFiles read fs).index = (fs.map (brought read)).foldl takeIn x := by
  induction fs generalizing x with
  | nil => rfl
  | cons f rest ih => rw [addFiles, List.map_cons, List.foldl_cons, ← addFile_index, ← ih]

theorem addFiles_result (read : UnitReader) (x : Index) (fs : List Found) :
    (x.addFiles read fs).result =
      ⟨(fs.filter fun f => !isSkipped read f).length,
        (fs.filter (isSkipped read)).map Found.path⟩ := by
  induction fs generalizing x with
  | nil => rfl
  | cons f rest ih =>
    simp only [addFiles, addFile_result, ih]
    by_cases skipped : isSkipped read f = true <;> simp [skipped]

theorem mem_typeNames_takeIn {x : Index} {c : Contribution} {name : String} :
    name ∈ (x.takeIn c).types.names ↔ name ∈ x.types.names ∨ name ∈ c.typeNames := by
  rw [takeIn, Table.mem_names_putNewAll, names_named]

theorem mem_packageNames_takeIn {x : Index} {c : Contribution} {name : String} :
    name ∈ (x.takeIn c).packages.names ↔
      name ∈ x.packages.names ∨ c.packageName? = some name :=
  mem_names_elim_addPackage

/-- The types that files bring stay, those of skipped files as well. -/
theorem mem_typeNames_addFiles {read : UnitReader} {x : Index} {fs : List Found} {name : String} :
    name ∈ (x.addFiles read fs).index.types.names ↔
      name ∈ x.types.names ∨ ∃ f ∈ fs, name ∈ (brought read f).typeNames := by
  rw [addFiles_index]
  induction fs generalizing x with
  | nil => simp
  | cons f rest ih =>
    rw [List.map_cons, List.foldl_cons, ih, mem_typeNames_takeIn, or_assoc]
    simp

theorem mem_packageNames_addFiles {read : UnitReader} {x : Index} {fs : List Found}
    {name : String} :
    name ∈ (x.addFiles read fs).index.packages.names ↔
      name ∈ x.packages.names ∨ ∃ f ∈ fs, (brought read f).packageName? = some name := by
  rw [addFiles_index]
  induction fs generalizing x with
  | nil => simp
  | cons f rest ih =>
    rw [List.map_cons, List.foldl_cons, ih, mem_packageNames_takeIn, or_assoc]
    simp

/-! ## With and without the skipped files -/

def kept (read : UnitReader) (fs : List Found) : List Found :=
  fs.filter fun f => !isSkipped read f

theorem exists_mem_iff_kept (read : UnitReader) {fs : List Found} {p : Found → Prop} :
    (∃ f ∈ fs, p f) ↔
      (∃ f ∈ kept read fs, p f) ∨ ∃ f ∈ fs, isSkipped read f = true ∧ p f := by
  constructor
  · rintro ⟨f, mem, h⟩
    by_cases skipped : isSkipped read f = true
    · exact .inr ⟨f, mem, skipped, h⟩
    · exact .inl ⟨f, List.mem_filter.mpr ⟨mem, by simp [skipped]⟩, h⟩
  · rintro (⟨f, mem, h⟩ | ⟨f, mem, _, h⟩)
    · exact ⟨f, (List.mem_filter.mp mem).1, h⟩
    · exact ⟨f, mem, h⟩

/-- The contribution is nothing but a fault. -/
def Contribution.BringsNothing (c : Contribution) : Prop := c.package = none ∧ c.types = []

theorem takeIn_of_bringsNothing {c : Contribution} (h : c.BringsNothing) (x : Index) :
    x.takeIn c = x := by
  refine takeIn_eq_self_iff.mpr ⟨?_, ?_⟩
  · simp [h.1]
  · simp [Contribution.typeNames, h.2]

theorem addFiles_kept {read : UnitReader} {fs : List Found}
    (h : ∀ f ∈ fs, isSkipped read f = true → (brought read f).BringsNothing) (x : Index) :
    (x.addFiles read fs).index = (x.addFiles read (kept read fs)).index := by
  rw [addFiles_index, addFiles_index]
  induction fs generalizing x with
  | nil => rfl
  | cons f rest ih =>
    obtain ⟨first, others⟩ := List.forall_mem_cons.mp h
    rw [List.map_cons, List.foldl_cons, ih others]
    by_cases skipped : isSkipped read f = true
    · have left : kept read (f :: rest) = kept read rest := by simp [kept, skipped]
      rw [left, takeIn_of_bringsNothing (first skipped)]
    · have stays : kept read (f :: rest) = f :: kept read rest := by simp [kept, skipped]
      rw [stays, List.map_cons, List.foldl_cons]

theorem bringsNothing_of_unopened {read : UnitReader} {f : Found} (h : f.bytes = none) :
    (brought read f).BringsNothing := by
  simp [brought, h, Contribution.BringsNothing]

/-- What becomes of the skipped files. They are left out of the count. A file that cannot be opened
leaves the index alone, and one with a fault just when its unit brings no news before the fault. In
the end the index holds the packages and types of the other files and those of the skipped ones; it
is the index without the skipped files if these bring nothing but faults. -/
theorem addFiles_skipped (read : UnitReader) (x : Index) (fs : List Found) :
    (x.addFiles read fs).result =
        ⟨(kept read fs).length, (fs.filter (isSkipped read)).map Found.path⟩ ∧
      (∀ (y : Index) (f : Found), f.bytes = none → (y.addFile read f).index = y) ∧
      (∀ (y : Index) (f : Found),
        (y.addFile read f).index = y ↔ Knows y (brought read f)) ∧
      (∀ name, name ∈ (x.addFiles read fs).index.packages.names ↔
        name ∈ (x.addFiles read (kept read fs)).index.packages.names ∨
          ∃ f ∈ fs, isSkipped read f = true ∧ (brought read f).packageName? = some name) ∧
      (∀ name, name ∈ (x.addFiles read fs).index.types.names ↔
        name ∈ (x.addFiles read (kept read fs)).index.types.names ∨
          ∃ f ∈ fs, isSkipped read f = true ∧ name ∈ (brought read f).typeNames) ∧
      ((∀ f ∈ fs, isSkipped read f = true → (brought read f).BringsNothing) →
        (x.addFiles read fs).index = (x.addFiles read (kept read fs)).index) := by
  refine ⟨addFiles_result read x fs, ?_, ?_, ?_, ?_, fun h => addFiles_kept h x⟩
  · intro y f unopened
    rw [addFile_index]
    exact takeIn_of_bringsNothing (bringsNothing_of_unopened unopened) y
  · intro y f
    rw [addFile_index, takeIn_eq_self_iff]
  · intro name
    rw [mem_packageNames_addFiles, mem_packageNames_addFiles, or_assoc,
      ← exists_mem_iff_kept read]
  · intro name
    rw [mem_typeNames_addFiles, mem_typeNames_addFiles, or_assoc,
      ← exists_mem_iff_kept read]

/-- A class that can be read, and one with a method that has no name. -/
def faultyText : String := "package p;class A{void m(){}}class B{void (){}}"

def faultyTree : Node :=
  .mk "program" 0 47 true none
    [.mk "package_declaration" 0 10 true none [.mk "identifier" 8 9 true none []],
     .mk "class_declaration" 10 29 true none
       [.mk "identifier" 16 17 true (some "name") [],
        .mk "class_body" 17 29 true (some "body")
          [.mk "method_declaration" 18 28 true none
            [.mk "void_type" 18 22 true (some "type") [],
             .mk "identifier" 23 24 true (some "name") [],
             .mk "formal_parameters" 24 26 true (some "parameters") []]]],
     .mk "class_declaration" 29 47 true none
       [.mk "identifier" 35 36 true (some "name") [],
        .mk "class_body" 36 47 true (some "body")
          [.mk "method_declaration" 37 46 true none
            [.mk "void_type" 37 41 true (some "type") [],
             .mk "formal_parameters" 42 44 true (some "parameters") []]]]]

def faultyReader : UnitReader := fun text path => ⟨Source.ofText text, some path, faultyTree⟩

def faultyListing : Listing := [("A.java", .file (Text.Utf8.encode faultyText.toList))]

/-- The only file is skipped, but its package and its first class are there. -/
theorem scan_faultyListing :
    (scan faultyReader empty "root" (some faultyListing)).result.skipped = ["root/A.java"] ∧
      (scan faultyReader empty "root" (some faultyListing)).index.packages.names = ["p"] ∧
      (scan faultyReader empty "root" (some faultyListing)).index.types.names = ["p.A"] ∧
      (scan faultyReader empty "root" (some faultyListing)).index ≠
        (empty.addFiles faultyReader
          (kept faultyReader (sourceFiles "root" faultyListing))).index := by
  refine ⟨by decide +kernel, by decide +kernel, by decide +kernel, fun same => ?_⟩
  have names := congrArg (fun x => x.types.names) same
  revert names
  decide +kernel

end Index

end ApiDocs
