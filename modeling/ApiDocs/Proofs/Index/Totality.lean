import ApiDocs.Proofs.Index.Rendering
import ApiDocs.Proofs.Index.Walk
import Mathlib.Data.List.Induction

/-! A well-formed unit has no fault, and all supertypes that it builds are named. What the walk
over the declarations keeps is that each is well-formed itself and is named after its simple name;
from the names it follows that no name means the empty one in the scope of the unit. -/

namespace ApiDocs

/-- The superclass, if there is one, and the interfaces. -/
def TypeDecl.supertypes (t : TypeDecl) : List TypeRef := t.superclass.toList ++ t.interfaces

namespace Index

open Node

variable {scope : Scope} {vars : List String}

/-! ## Signatures -/

theorem childOr_gives {n : Node} {field : String} (h : (n.childByField? field).isSome) :
    Gives (childOr n field) fun c => n.childByField? field = some c := by
  obtain ⟨c, hc⟩ := Option.isSome_iff_exists.mp h
  unfold childOr
  rw [hc]
  exact .ok rfl

theorem textOfField_gives (source : Source) {n : Node} {field : String}
    (h : (n.childByField? field).isSome) :
    Gives (textOfField source n field) fun _ => True :=
  ((childOr_gives h).mono fun _ _ => trivial).map

theorem formalParameter_gives (vars : List String) {n : Node} (h : WellFormed scope.source n)
    (kind : n.kind = "formal_parameter") :
    Gives (formalParameter scope vars n) fun _ => True := by
  obtain ⟨type, name⟩ := h.complete.parameter kind
  refine (childOr_gives type).bind fun c hc => ?_
  refine (typeRef_readable vars (h.childByField hc)).bind fun _ _ => ?_
  exact (textOfField_gives scope.source name).bind fun _ _ => .ok trivial

theorem spreadParameter_gives (vars : List String) {n : Node} (h : WellFormed scope.source n)
    (kind : n.kind = "spread_parameter") :
    Gives (spreadParameter scope vars n) fun _ => True := by
  obtain ⟨type, found⟩ := Option.isSome_iff_exists.mp (h.complete.spreadType kind)
  obtain ⟨name, hname⟩ := Option.isSome_iff_exists.mp (h.complete.spreadName kind)
  obtain ⟨declarator, hd, hname⟩ := Option.bind_eq_some_iff.mp hname
  have named : (declarator.childByField? "name").isSome := by rw [hname]; rfl
  unfold spreadParameter
  rw [found, hd]
  refine (typeRef_readable vars (h.namedChild (List.mem_of_find?_eq_some found))).bind
    fun _ _ => ?_
  exact (textOfField_gives scope.source named).bind fun _ _ => .ok trivial

theorem parameters_gives (vars : List String) {n : Node} (h : WellFormed scope.source n) :
    Gives (parameters scope vars n) fun _ => True := by
  unfold parameters
  split
  · exact .ok trivial
  · next list found =>
    have each : ∀ p ∈ list.namedChildren, Gives (parameter? scope vars p) fun _ => True := by
      intro p hp
      have inner := (h.childByField found).namedChild hp
      unfold parameter?
      split
      · next formal => exact (formalParameter_gives vars inner formal).map
      split
      · next spread => exact (spreadParameter_gives vars inner spread).map
      · exact .ok trivial
    exact ((Gives.mapM each).mono fun _ _ => trivial).map

theorem annotations_gives (scope : Scope) {n : Node}
    (h : ∀ a ∈ annotationsOf n, (a.childByField? "name").isSome) :
    Gives (annotations scope n) fun _ => True := by
  unfold annotations
  split
  · exact .ok trivial
  · next modifiers found =>
    have each : ∀ a ∈ modifiers.childrenOfKind annotationKinds,
        Gives (annotationName scope a) fun _ => True := by
      intro a ha
      have named := h a (by simpa [annotationsOf, found] using ha)
      exact (childOr_gives named).bind fun _ _ => .ok trivial
    exact (Gives.mapM each).mono fun _ _ => trivial

theorem method_gives (vars : List String) {p : Placed} (h : WellFormed scope.source p.node)
    (kind : p.node.kind ∈ methodKinds) :
    Gives (method scope vars p) fun _ => True := by
  obtain ⟨type, name⟩ := h.complete.signature kind
  refine (childOr_gives type).bind fun c hc => ?_
  refine (typeRef_readable _ (h.childByField hc)).bind fun _ _ => ?_
  refine (parameters_gives _ h).bind fun _ _ => ?_
  refine (textOfField_gives scope.source name).bind fun _ _ => ?_
  exact (annotations_gives scope (h.complete.annotations kind)).bind fun _ _ => .ok trivial

/-! ## Declarations -/

theorem named_unlessRoot {r : TypeRef} (h : r.Named) : (unlessRoot r).Named := by
  unfold unlessRoot
  split
  · intro declared
    cases declared
  · exact h

theorem superclass_gives (meaningful : scope.Meaningful) (vars : List String) {n : Node}
    (h : WellFormed scope.source n) :
    Gives (superclass scope vars n) fun s => ∀ r ∈ s.toList, r.Named := by
  unfold superclass
  split
  · exact .ok (by simp)
  · next type found =>
    obtain ⟨clause, hc, last⟩ := Option.bind_eq_some_iff.mp found
    have inner := (h.childOfKind hc).namedChild (List.mem_of_getLast? last)
    refine ((typeRef_gives meaningful vars inner).mono fun r named => ?_).map
    simpa using named_unlessRoot named

theorem interfaces_gives (meaningful : scope.Meaningful) (vars : List String) {n : Node}
    (h : WellFormed scope.source n) :
    Gives (interfaces scope vars n) fun l => ∀ r ∈ l, r.Named := by
  unfold interfaces
  dsimp only
  split
  · exact .ok (by simp)
  · next types found =>
    obtain ⟨clause, hc, list⟩ := Option.bind_eq_some_iff.mp found
    have inner := (h.childOfKind hc).childOfKind list
    exact Gives.mapM fun c hc => typeRef_gives meaningful vars (inner.namedChild hc)

/-- A declaration that can be read. -/
structure Declaration.Readable (s : Source) (d : Declaration) : Prop where
  node : WellFormed s d.place.node
  methods : ∀ m ∈ d.methods, WellFormed s m.node ∧ m.node.kind ∈ methodKinds
  name : ∃ before, d.qualifiedName = before ++ d.simpleName

theorem typeDecl_gives (meaningful : scope.Meaningful) {d : Declaration}
    (h : d.Readable scope.source) :
    Gives (typeDecl scope d) fun t => ∀ r ∈ t.2.supertypes, r.Named := by
  refine (superclass_gives meaningful d.typeVars h.node).bind fun superclass named => ?_
  refine (interfaces_gives meaningful d.typeVars h.node).bind fun interfaces allNamed => ?_
  have each : ∀ m ∈ d.methods, Gives (method scope d.typeVars m) fun _ => True := fun m hm =>
    method_gives d.typeVars (h.methods m hm).1 (h.methods m hm).2
  refine (Gives.mapM each).bind fun methods _ => .ok ?_
  intro r hr
  rcases List.mem_append.mp hr with hr | hr
  · exact named r hr
  · exact allNamed r hr

/-! ## The walk over the declarations -/

theorem preorderAll_eq_flatMap (s : Source) (before : String) (vars : List String)
    (l : List Decl) : preorderAll s before vars l = l.flatMap (Decl.preorder s before vars) := by
  induction l with
  | nil => rfl
  | cons d rest ih => rw [preorderAll, ih, List.flatMap_cons]

theorem outline_gives (s : Source) (p : Placed) (h : WellFormed s p.node)
    (kind : p.node.kind ∈ typeDeclarationKinds) :
    Gives (outline s p) fun d =>
      ∀ before vars, ∀ e ∈ d.preorder s before vars, e.Readable s := by
  rw [outline_eq]
  refine (textOfField_gives s (h.complete.typeName kind)).bind fun name _ => ?_
  have inner : ∀ m ∈ (members p.node).filter isTypeDeclaration,
      Gives (outline s m) fun d => ∀ before vars, ∀ e ∈ d.preorder s before vars, e.Readable s := by
    intro m hm
    obtain ⟨member, declares⟩ := List.mem_filter.mp hm
    exact outline_gives s m (h.member member) (isTypeDeclaration_iff.mp declares)
  refine (Gives.mapM inner).bind fun nested readable => .ok ?_
  intro before vars e he
  rw [Decl.preorder, List.mem_cons, preorderAll_eq_flatMap, List.mem_flatMap] at he
  rcases he with rfl | ⟨d, hd, he⟩
  · refine ⟨h, fun m hm => ?_, before, rfl⟩
    obtain ⟨member, isMethod⟩ := List.mem_filter.mp hm
    exact ⟨h.member member, isMethod_iff.mp isMethod⟩
  · exact readable d hd _ _ e he
termination_by sizeOf p.node
decreasing_by exact sizeOf_lt_of_mem_members member

/-! ## The scope of a unit -/

theorem localsOf_eq (l : List Declaration) :
    localsOf l = Table.empty.putNewAll (l.map fun d => (d.simpleName, d.qualifiedName)) := by
  simp [localsOf, Table.putNewAll, List.foldl_map]

/-- Under a simple name stands the qualified name of a declaration with this simple name. -/
theorem mem_of_get?_localsOf {l : List Declaration} {name qualified : String}
    (h : (localsOf l).get? name = some qualified) :
    ∃ d ∈ l, d.simpleName = name ∧ d.qualifiedName = qualified := by
  rw [localsOf_eq, Table.get?_putNewAll] at h
  have found : (l.map fun d => (d.simpleName, d.qualifiedName)).lookup name = some qualified := by
    simpa [Table.empty, Table.get?] using h
  obtain ⟨before, after, parts, _⟩ := List.lookup_eq_some_iff.mp found
  have entry : (name, qualified) ∈ l.map fun d => (d.simpleName, d.qualifiedName) := by
    rw [parts]
    simp
  obtain ⟨d, hd, e⟩ := List.mem_map.mp entry
  cases e
  exact ⟨d, hd, rfl, rfl⟩

/-- Under a simple name stands the imported type whose name ends in it. -/
theorem mem_of_get?_importsOf {s : Source} {root : Node} {name qualified : String}
    (h : (importsOf s root).get? name = some qualified) :
    (∃ n ∈ root.childrenOfKind ["import_declaration"], importedType? s n = some qualified) ∧
      lastPart qualified = name := by
  unfold importsOf at h
  rw [← List.mem_filterMap]
  generalize (root.childrenOfKind ["import_declaration"]).filterMap (importedType? s) = l at h ⊢
  -- every table on the way has this property, from the empty one on
  induction l using List.reverseRecOn with
  | nil => cases h
  | append_singleton l last ih =>
    rw [List.foldl_append, List.foldl_cons, List.foldl_nil, Table.get?_put] at h
    split at h
    · next same =>
      cases h
      exact ⟨by simp, same.symm⟩
    · exact (ih h).imp_left fun known => List.mem_append_left _ known

theorem meaningful_scope {u : SourceUnit} {l : List Declaration}
    (readable : ∀ d ∈ l, d.Readable u.source) : (u.scope l).Meaningful := by
  intro name qualified found ne
  rcases found with found | found
  · obtain ⟨d, hd, rfl, rfl⟩ := mem_of_get?_localsOf found
    obtain ⟨before, named⟩ := (readable d hd).name
    rw [named]
    intro empty
    exact ne (String.append_eq_empty_iff.mp empty).2
  · rintro rfl
    exact ne (mem_of_get?_importsOf found).2.symm

/-! ## The unit -/

theorem packageOf_gives {u : SourceUnit} (h : u.WellFormed) :
    Gives (packageOf u) fun _ => True := by
  unfold packageOf
  split
  · exact .ok trivial
  · next p found =>
    have kind : p.node.kind = "package_declaration" := by simpa using List.find?_some found
    have inner : WellFormed u.source p.node :=
      h.child (mem_children_of_mem_placed (List.mem_of_find?_eq_some found))
    obtain ⟨name, hname⟩ := Option.isSome_iff_exists.mp (inner.complete.package kind)
    rw [hname]
    exact .ok trivial

theorem outlines_gives {u : SourceUnit} (h : u.WellFormed) :
    Gives u.outlines fun l => ∀ package, ∀ d ∈ u.preorder package l, d.Readable u.source := by
  have each : ∀ p ∈ u.tree.placedChildren.filter isTypeDeclaration, Gives (outline u.source p)
      fun d => ∀ before vars, ∀ e ∈ d.preorder u.source before vars, e.Readable u.source := by
    intro p hp
    obtain ⟨child, declares⟩ := List.mem_filter.mp hp
    exact outline_gives u.source p (h.child (mem_children_of_mem_placed child))
      (isTypeDeclaration_iff.mp declares)
  refine (Gives.mapM each).mono fun l readable package e he => ?_
  rw [SourceUnit.preorder, preorderAll_eq_flatMap, List.mem_flatMap] at he
  obtain ⟨d, hd, he⟩ := he
  exact readable d hd _ _ e he

/-- A well-formed unit contributes all that it declares. -/
theorem contribution_of_wellFormed {u : SourceUnit} (h : u.WellFormed) :
    u.contribution.fault = none ∧ ∀ t ∈ u.types, ∀ r ∈ t.supertypes, r.Named := by
  obtain ⟨package, hp, _⟩ := packageOf_gives h
  obtain ⟨l, hl, readable⟩ := outlines_gives h
  have meaningful := meaningful_scope (readable package)
  obtain ⟨none, named⟩ := Progress.run_of_gives fun d hd =>
    typeDecl_gives meaningful (readable package d hd)
  unfold SourceUnit.types SourceUnit.contribution
  rw [hp]
  simp only [hl]
  refine ⟨none, fun t ht => ?_⟩
  obtain ⟨built, hb, rfl⟩ := List.mem_map.mp ht
  exact named built hb

end Index

end ApiDocs
