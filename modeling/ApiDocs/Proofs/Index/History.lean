import ApiDocs.Proofs.Index.Walk
import ApiDocs.Proofs.Table

/-! What an index holds after any run, told without the run: of each package the last comment that
a unit found for it, of each type the first declaration. A unit with a fault takes part with what
it built before, and no unit takes anything away. -/

namespace ApiDocs

def Package.commentFor (name : String) (p : Package) : Option Comment :=
  if p.qualifiedName = name then p.comment else none

namespace Index

/-! ## Packages one after the other -/

theorem names_addPackage (t : Table (Option Comment)) (p : Package) :
    (addPackage t p).names =
      if p.qualifiedName ∈ t.names then t.names else t.names ++ [p.qualifiedName] := by
  unfold addPackage
  split
  · exact Table.names_put t p.qualifiedName p.comment
  · next h =>
    have known : p.qualifiedName ∈ t.names := by
      simp only [Bool.or_eq_true, Bool.not_eq_true', not_or, Bool.not_eq_false] at h
      exact Table.contains_iff.mp h.2
    simp [known]

theorem mem_names_elim_addPackage {t : Table (Option Comment)} {p : Option Package}
    {name : String} :
    name ∈ (p.elim t (addPackage t)).names ↔
      name ∈ t.names ∨ p.map Package.qualifiedName = some name := by
  cases p with
  | none => simp
  | some p =>
    rw [Option.elim_some, names_addPackage, Option.map_some, Option.some.injEq]
    split
    · next known => exact ⟨.inl, fun h => h.elim id fun same => same ▸ known⟩
    · rw [List.mem_append, List.mem_singleton, eq_comm]

/-- A comment replaces the one before it, none leaves it. -/
theorem get?_addPackage (t : Table (Option Comment)) (p : Package) (name : String) :
    (addPackage t p).get? name =
      if name = p.qualifiedName then some (p.comment.or (t.get? name).join) else t.get? name := by
  unfold addPackage
  split
  · next h =>
    rw [Table.get?_put]
    by_cases same : name = p.qualifiedName
    · subst same
      cases hc : p.comment with
      | some c => simp
      | none =>
        have new : p.qualifiedName ∉ t.names := by simpa [hc, Table.contains] using h
        simp [Table.get?_eq_none_iff.mpr new]
    · simp [same]
  · next h =>
    simp only [Bool.or_eq_true, Bool.not_eq_true', not_or, Bool.not_eq_false,
      Option.not_isSome_iff_eq_none] at h
    obtain ⟨none, known⟩ := h
    by_cases same : name = p.qualifiedName
    · subst same
      cases hg : t.get? p.qualifiedName with
      | none => exact absurd (Table.contains_iff.mp known) (Table.get?_eq_none_iff.mp hg)
      | some c => simp [none]
    · simp [same]

theorem names_foldl_addPackage (l : List Package) :
    (l.foldl addPackage Table.empty).names = (l.map Package.qualifiedName).eraseDups := by
  induction l using List.reverseRecOn with
  | nil => rfl
  | append_singleton l p ih =>
    rw [List.foldl_append, List.foldl_cons, List.foldl_nil, names_addPackage, ih,
      List.map_append, List.map_singleton, Table.eraseDups_snoc]
    simp only [List.mem_eraseDups]

theorem get?_foldl_addPackage (l : List Package) (name : String) :
    (l.foldl addPackage Table.empty).get? name =
      if name ∈ l.map Package.qualifiedName then
        some (l.filterMap (Package.commentFor name)).getLast?
      else none := by
  -- from the end of the list, since the last comment decides
  induction l using List.reverseRecOn with
  | nil => rfl
  | append_singleton l p ih =>
    rw [List.foldl_append, List.foldl_cons, List.foldl_nil, get?_addPackage, ih]
    by_cases same : p.qualifiedName = name
    · subst same
      have earlier : (if p.qualifiedName ∈ l.map Package.qualifiedName then
          some (l.filterMap (Package.commentFor p.qualifiedName)).getLast? else none).join =
          (l.filterMap (Package.commentFor p.qualifiedName)).getLast? := by
        split
        · rfl
        · next new =>
          have none : l.filterMap (Package.commentFor p.qualifiedName) = [] := by
            rw [List.filterMap_eq_nil_iff]
            intro q hq
            have differs : q.qualifiedName ≠ p.qualifiedName := fun e =>
              new (List.mem_map.mpr ⟨q, hq, e⟩)
            simp [Package.commentFor, differs]
          simp [none]
      rw [earlier]
      cases hc : p.comment <;> simp [Package.commentFor, hc]
    · have differs : name ≠ p.qualifiedName := fun e => same e.symm
      simp [Package.commentFor, same, differs]

/-! ## The history -/

/-- The comment that a unit finds for a package. -/
def SourceUnit.commentFor (name : String) (u : SourceUnit) : Option Comment :=
  u.contribution.package.bind (Package.commentFor name)

/-- Only units that may document a package count, and of those the last that does. -/
def lastComment (us : List SourceUnit) (name : String) : Option Comment :=
  ((us.filter fun u => documentsPackage u.path).filterMap (SourceUnit.commentFor name)).getLast?

/-- Names in the order in which they first came; under each name the last comment or the first
declaration. -/
structure IsHistory (us : List SourceUnit) (x : Index) : Prop where
  packageNames : x.packages.names =
    (us.filterMap fun u => u.contribution.package.map Package.qualifiedName).eraseDups
  comments : ∀ name ∈ x.packages.names, x.packages.get? name = some (lastComment us name)
  typeNames : x.types.names =
    ((us.flatMap SourceUnit.types).map TypeDecl.qualifiedName).eraseDups
  types : ∀ name, x.types.get? name =
    (us.flatMap SourceUnit.types).find? fun t => t.qualifiedName = name

/-- What is known of a unit's package: which comment documents it, if any may. -/
theorem exists_of_package {u : SourceUnit} {p : Package} (h : u.contribution.package = some p) :
    ∃ place, p.comment = if documentsPackage u.path then commentOf u.source place else none := by
  have package : packageOf u = .ok (some p) := by
    unfold SourceUnit.contribution at h
    cases ho : packageOf u with
    | error f => simp [ho] at h
    | ok package => cases hl : u.outlines <;> simp_all
  unfold packageOf at package
  split at package
  · cases package
  · next place _ =>
    split at package
    · cases package
    · cases package
      exact ⟨place, rfl⟩

/-- Only units that may document a package have a comment on it, and that is one of their source. -/
theorem exists_of_commentFor {u : SourceUnit} {name : String} {c : Comment}
    (h : u.commentFor name = some c) :
    documentsPackage u.path = true ∧ ∃ place, commentOf u.source place = some c := by
  obtain ⟨p, package, comment⟩ := Option.bind_eq_some_iff.mp h
  obtain ⟨place, found⟩ := exists_of_package package
  unfold Package.commentFor at comment
  split at comment
  · rw [comment] at found
    split at found
    · next documents => exact ⟨documents, place, found.symm⟩
    · cases found
  · cases comment

theorem documentsPackage_of_commentFor {u : SourceUnit} {name : String} {c : Comment}
    (h : u.commentFor name = some c) : documentsPackage u.path = true :=
  (exists_of_commentFor h).1

theorem lastComment_eq (us : List SourceUnit) (name : String) :
    lastComment us name =
      ((us.filterMap fun u => u.contribution.package).filterMap
        (Package.commentFor name)).getLast? := by
  unfold lastComment
  rw [List.filterMap_filter, List.filterMap_filterMap]
  congr 2
  funext u
  cases hc : u.commentFor name with
  | none => simpa [SourceUnit.commentFor, hc] using hc.symm
  | some c => simpa [documentsPackage_of_commentFor hc, SourceUnit.commentFor] using hc.symm

theorem lookup_named (l : List TypeDecl) (name : String) :
    (named l).lookup name = l.find? fun t => t.qualifiedName = name := by
  induction l with
  | nil => rfl
  | cons t rest ih =>
    have head : named (t :: rest) = (t.qualifiedName, t) :: named rest := rfl
    rw [head, Table.lookup_cons_eq, List.find?_cons, ih]
    by_cases h : name = t.qualifiedName
    · simp [h]
    · have differs : t.qualifiedName ≠ name := fun e => h e.symm
      simp [h, differs]

theorem isHistory_addAll_empty (us : List SourceUnit) :
    IsHistory us (empty.addAll us).index := by
  have packages := addAll_packages empty us
  have types := addAll_types empty us
  constructor
  · rw [packages]
    exact (names_foldl_addPackage _).trans (by rw [List.map_filterMap])
  · intro name h
    rw [packages] at h ⊢
    have known := List.mem_eraseDups.mp ((names_foldl_addPackage _) ▸ h)
    refine (get?_foldl_addPackage _ name).trans ?_
    rw [if_pos known, lastComment_eq]
  · rw [types]
    refine (Table.names_putNewAll_empty _).trans ?_
    simp [named, Function.comp_def]
  · intro name
    rw [types, Table.get?_putNewAll, lookup_named]
    rfl

/-! ## One unit more -/

/-- Nothing is lost, and nothing that is known moves. -/
structure Extends (x y : Index) : Prop where
  types : x.types.entries <+: y.types.entries
  packages : x.packages.names <+: y.packages.names
  comments : ∀ name c, x.packages.get? name = some (some c) →
    ∃ d, y.packages.get? name = some (some d)

theorem extends_add (x : Index) (u : SourceUnit) : Extends x (x.add u).index := by
  constructor
  · rw [add_types]
    exact Table.prefix_putNewAll x.types _
  · rw [add_packages]
    cases u.contribution.package with
    | none => exact List.prefix_rfl
    | some p =>
      change x.packages.names <+: (addPackage x.packages p).names
      rw [names_addPackage]
      split
      · exact List.prefix_rfl
      · exact List.prefix_append _ _
  · intro name c h
    rw [add_packages]
    cases u.contribution.package with
    | none => exact ⟨c, h⟩
    | some p =>
      change ∃ d, (addPackage x.packages p).get? name = some (some d)
      rw [get?_addPackage]
      split
      · cases p.comment with
        | none => exact ⟨c, by simp [h]⟩
        | some d => exact ⟨d, by simp⟩
      · exact ⟨c, h⟩

/-- A run from an empty index leads to its history, each unit only adds to what is there, and the
fault of a unit is the same whatever was added before it. -/
theorem addAll_history (us : List SourceUnit) :
    IsHistory us (empty.addAll us).index ∧
      (∀ (x : Index) (u : SourceUnit), Extends x (x.add u).index) ∧
      (∀ x : Index, (x.addAll us).result = us.map fun u => (empty.add u).result) ∧
      ∀ (x y : Index) (u : SourceUnit), (x.add u).result = (y.add u).result := by
  refine ⟨isHistory_addAll_empty us, extends_add, ?_, ?_⟩
  · intro x
    rw [addAll_result]
    exact List.map_congr_left fun u _ => (add_result empty u).symm
  · intro x y u
    rw [add_result, add_result]

end Index

end ApiDocs
