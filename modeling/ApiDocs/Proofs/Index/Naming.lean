import ApiDocs.Proofs.Report.Order

/-! How the types of an index are named. A type stands under its own name, no two share one, and
what comes before its simple name is a package of the index or a type that was entered earlier. -/

namespace ApiDocs

namespace Index

/-- The name is the simple name alone, or it continues the name of a package or of an earlier
type. -/
inductive DerivedName (packages earlier : List String) (t : TypeDecl) : Prop
  | alone : t.qualifiedName = t.simpleName → DerivedName packages earlier t
  | inPackage {p : String} : p ∈ packages → t.qualifiedName = p ++ "." ++ t.simpleName →
      DerivedName packages earlier t
  | inType {q : String} : q ∈ earlier → t.qualifiedName = q ++ "." ++ t.simpleName →
      DerivedName packages earlier t

structure WellNamed (x : Index) : Prop where
  distinct : x.types.names.Nodup
  keyed : ∀ e ∈ x.types.entries, e.2.qualifiedName = e.1
  derived : ∀ before t after, x.types.values = before ++ t :: after →
    DerivedName x.packages.names (before.map TypeDecl.qualifiedName) t

/-- What may stand before the simple name of the next type. -/
def Qualifies (x : Index) (before : String) : Prop :=
  before = "" ∨ (∃ p ∈ x.packages.names, before = p ++ ".") ∨
    ∃ q ∈ x.types.names, before = q ++ "."

theorem wellNamed_empty : WellNamed empty := by
  refine ⟨.nil, fun e mem => (nomatch mem), fun before t after split => ?_⟩
  cases before <;> cases split

theorem DerivedName.mono {packages packages' earlier : List String} {t : TypeDecl}
    (h : DerivedName packages earlier t) (more : packages ⊆ packages') :
    DerivedName packages' earlier t := by
  cases h with
  | alone name => exact .alone name
  | inPackage mem name => exact .inPackage (more mem) name
  | inType mem name => exact .inType mem name

theorem WellNamed.names_eq {x : Index} (h : WellNamed x) :
    x.types.values.map TypeDecl.qualifiedName = x.types.names := by
  rw [Table.values, List.map_map, Table.names]
  exact List.map_congr_left h.keyed

theorem Qualifies.derived {x : Index} (h : WellNamed x) {before : String} (q : Qualifies x before)
    {t : TypeDecl} (name : t.qualifiedName = before ++ t.simpleName) :
    DerivedName x.packages.names (x.types.values.map TypeDecl.qualifiedName) t := by
  rcases q with rfl | ⟨p, mem, rfl⟩ | ⟨q, mem, rfl⟩
  · exact .alone (by simpa using name)
  · exact .inPackage mem name
  · exact .inType (h.names_eq ▸ mem) name

/-! ## One declaration -/

/-- A type with a new name at the end. -/
theorem WellNamed.snoc {x y : Index} (h : WellNamed x) (packages : y.packages = x.packages)
    {t : TypeDecl} (new : t.qualifiedName ∉ x.types.names)
    (types : y.types.entries = x.types.entries ++ [(t.qualifiedName, t)])
    (derived : DerivedName x.packages.names (x.types.values.map TypeDecl.qualifiedName) t) :
    WellNamed y := by
  have names : y.types.names = x.types.names ++ [t.qualifiedName] := by
    simp [Table.names, types]
  have values : y.types.values = x.types.values ++ [t] := by
    simp [Table.values, types]
  constructor
  · rw [names, List.nodup_append]
    refine ⟨h.distinct, List.nodup_singleton _, fun a ha b hb same => new ?_⟩
    rwa [← List.mem_singleton.mp hb, ← same]
  · intro e mem
    rw [types, List.mem_append, List.mem_singleton] at mem
    rcases mem with mem | rfl
    · exact h.keyed e mem
    · rfl
  · intro before s after split
    rw [values] at split
    rw [packages]
    rcases List.eq_nil_or_concat after with rfl | ⟨after, last, rfl⟩
    · obtain ⟨rfl, same⟩ := List.append_inj' split rfl
      cases same
      exact derived
    · rw [List.concat_eq_append, ← List.cons_append, ← List.append_assoc] at split
      exact h.derived before s after (List.append_inj' split rfl).1

/-- Unless it has a fault, the declaration is known afterwards. -/
theorem enter_wellNamed (scope : Scope) {x : Index} {d : Declaration} {before : String}
    (h : WellNamed x) (q : Qualifies x before) (name : d.qualifiedName = before ++ d.simpleName) :
    WellNamed (x.enter scope d).index ∧
      ((x.enter scope d).result = none → d.qualifiedName ∈ (x.enter scope d).index.types.names) := by
  unfold enter
  cases read : typeDecl scope d with
  | error f => exact ⟨h, fun none => nomatch none⟩
  | ok t =>
    obtain ⟨_, _, _, _, built⟩ := exists_of_typeDecl read
    by_cases known : x.types.contains d.qualifiedName = true
    · simp only [known, ↓reduceIte]
      exact ⟨h, fun _ => Table.contains_iff.mp known⟩
    · have new : d.qualifiedName ∉ x.types.names := fun mem => known (Table.contains_iff.mpr mem)
      have entries : (x.types.putNew d.qualifiedName t.2).entries =
          x.types.entries ++ [(t.2.qualifiedName, t.2)] := by
        rw [Table.putNew, if_neg known, built]
      simp only [known]
      refine ⟨h.snoc rfl (built ▸ new) entries (q.derived h (built ▸ name)), fun _ => ?_⟩
      change d.qualifiedName ∈ (x.types.putNew d.qualifiedName t.2).names
      rw [Table.names_putNew, if_neg new]
      exact List.mem_append_right _ List.mem_cons_self

/-! ## The walk -/

theorem Qualifies.extends {x y : Index} (h : Extends x y) {before : String}
    (q : Qualifies x before) : Qualifies y before := by
  rcases q with none | ⟨p, mem, same⟩ | ⟨q, mem, same⟩
  · exact .inl none
  · exact .inr (.inl ⟨p, h.packages.subset mem, same⟩)
  · exact .inr (.inr ⟨q, (h.types.map Prod.fst).subset mem, same⟩)

theorem extends_walk (scope : Scope) (before : String) (vars : List String) (x : Index)
    (d : Decl) : Extends x (x.walk scope before vars d).index := by
  rw [walk_eq_enterAll, (enterAll_eq scope x _).1]
  exact ⟨Table.prefix_putNewAll x.types _, List.prefix_rfl, fun _ c found => ⟨c, found⟩⟩

/-- What holds after the first step, and after the second if there is one, holds in the end. -/
theorem andThen_index {P : Index → Prop} {s : Step (Option Fault)}
    {next : Index → Step (Option Fault)} (first : P s.index)
    (second : s.result = none → P (next s.index).index) : P (s.andThen next).index := by
  cases result : s.result with
  | some f => simpa [Step.andThen, result] using first
  | none => simpa [Step.andThen, result] using second result

mutual

theorem walk_wellNamed (scope : Scope) {before : String} (vars : List String) {x : Index}
    (d : Decl) (h : WellNamed x) (q : Qualifies x before) :
    WellNamed (x.walk scope before vars d).index := by
  cases d with
  | mk place name methods nested =>
    rw [walk]
    let d : Declaration :=
      ⟨place, name, before ++ name, typeParameters scope.source place.node ++ vars, methods⟩
    obtain ⟨entered, known⟩ := enter_wellNamed scope (d := d) h q rfl
    refine andThen_index entered fun none => ?_
    exact walkAll_wellNamed scope _ nested entered (.inr (.inr ⟨_, known none, rfl⟩))

theorem walkAll_wellNamed (scope : Scope) {before : String} (vars : List String) {x : Index}
    (l : List Decl) (h : WellNamed x) (q : Qualifies x before) :
    WellNamed (x.walkAll scope before vars l).index := by
  cases l with
  | nil =>
    rw [walkAll]
    exact h
  | cons d rest =>
    rw [walkAll]
    have first := walk_wellNamed scope vars d h q
    refine andThen_index first fun _ => ?_
    exact walkAll_wellNamed scope vars rest first (q.extends (extends_walk scope before vars x d))

end

/-! ## A unit, and a run -/

theorem enterPackage_wellNamed {x : Index} (h : WellNamed x) (p : Option Package) :
    WellNamed (x.enterPackage p) ∧ Qualifies (x.enterPackage p) (packagePrefix p) := by
  constructor
  · refine ⟨h.distinct, h.keyed, fun before t after split => ?_⟩
    exact (h.derived before t after split).mono fun _ mem =>
      mem_names_elim_addPackage.mpr (.inl mem)
  · cases p with
    | none => exact .inl rfl
    | some p =>
      by_cases nameless : p.qualifiedName.isEmpty = true
      · exact .inl (if_pos nameless)
      · exact .inr (.inl ⟨p.qualifiedName, mem_names_elim_addPackage.mpr (.inr rfl), if_neg nameless⟩)

theorem add_wellNamed {x : Index} (h : WellNamed x) (u : SourceUnit) :
    WellNamed (x.add u).index := by
  unfold add
  cases packageOf u with
  | error f => exact h
  | ok package =>
    obtain ⟨entered, q⟩ := enterPackage_wellNamed h package
    cases u.outlines with
    | error f => exact entered
    | ok l =>
      have walked := walkAll_wellNamed (u.scope (u.preorder package l)) [] l entered q
      exact andThen_index walked fun _ => walked

theorem addAll_wellNamed {x : Index} (h : WellNamed x) (us : List SourceUnit) :
    WellNamed (x.addAll us).index := by
  induction us generalizing x with
  | nil => exact h
  | cons u rest ih => exact ih (add_wellNamed h u)

/-- Every index that a run leads to is well named, and so no report on one has two classes or two
packages of one name. -/
theorem names_of_run (us : List SourceUnit) :
    WellNamed (empty.addAll us).index ∧
      ∀ settings r, Report.compile settings (empty.addAll us).index.catalog = .ok r →
        (r.classes.map Report.Class.name).Nodup ∧ (r.packages.map Report.Package.name).Nodup := by
  refine ⟨addAll_wellNamed wellNamed_empty us, fun settings r compiled => ?_⟩
  obtain ⟨classes, made, perm, packages⟩ := Report.exists_classes_of_compile compiled
  have classNames : (classes.map Report.Class.name).Nodup := by
    rw [Report.mapM_compileClass_names made]
    exact (nodup_catalog_types us).sublist (List.filter_sublist.map _)
  have packageNames := nodup_catalog_packages us
  constructor
  · exact (perm.map _).nodup_iff.mpr classNames
  · refine (packages.map _).nodup_iff.mpr ?_
    rw [List.map_map]
    exact packageNames

end Index

end ApiDocs
