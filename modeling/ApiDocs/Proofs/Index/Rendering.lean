import ApiDocs.Proofs.Index.WellFormed
import ApiDocs.Proofs.Outcome

/-! Every type of a well-formed tree can be rendered, and a reference to a declared type gets a
name that is not empty, as long as no name leads to an empty one in the scope. -/

namespace ApiDocs

/-- A reference to a declared type says which. -/
def TypeRef.Named (r : TypeRef) : Prop :=
  r.kind = .declared → ∃ name, r.qualifiedName = some name ∧ name ≠ ""

namespace Index

open Node Text

/-! ## Names that are not empty -/

/-- Neither a type of the unit nor an import gives an empty meaning to a name. -/
def Scope.Meaningful (scope : Scope) : Prop :=
  ∀ name qualified, scope.locals.get? name = some qualified ∨ scope.imports.get? name = some qualified →
    name ≠ "" → qualified ≠ ""

theorem resolve_ne_empty {scope : Scope} (meaningful : scope.Meaningful) (vars : List String)
    {name : String} (h : name ≠ "") : scope.resolve vars name ≠ "" := by
  unfold Scope.resolve
  split
  · exact h
  · split
    · next qualified found => exact meaningful name qualified (.inl found) h
    · split
      · next qualified found => exact meaningful name qualified (.inr found) h
      · split
        · intro e
          have prefixed := congrArg String.toList e
          simp at prefixed
        · exact h

theorem toList_ne_nil {s : String} : s.toList ≠ [] ↔ s ≠ "" :=
  not_congr String.toList_eq_nil_iff

theorem ne_empty_of_not_allBlank {s : String} (h : allBlank s.toList = false) : s ≠ "" := by
  rintro rfl
  cases h

theorem withoutBlanks_ne_nil {s : List Char} (h : allBlank s = false) : withoutBlanks s ≠ [] := by
  intro none
  have all : allBlank s = true := by simpa [withoutBlanks, allBlank] using none
  rw [all] at h
  cases h

theorem resolveScoped_ne_empty {scope : Scope} (meaningful : scope.Meaningful)
    (vars : List String) {name : String} (h : allBlank name.toList = false) :
    resolveScoped scope vars name ≠ "" := by
  have joined : ['.'].intercalate ((withoutBlanks name.toList).splitOn '.') =
      withoutBlanks name.toList := List.intercalate_splitOn '.'
  unfold resolveScoped
  split
  · next none => exact absurd none (List.splitOn_ne_nil _ _)
  · next head rest parts =>
    rw [parts] at joined
    rw [← toList_ne_nil, dotted, String.toList_ofList]
    cases rest with
    | nil =>
      -- without a dot the head is all there is
      have head_ne : String.ofList head ≠ "" := by
        rw [← toList_ne_nil, String.toList_ofList]
        rw [List.intercalate_singleton] at joined
        rw [joined]
        exact withoutBlanks_ne_nil h
      rw [List.intercalate_singleton]
      exact toList_ne_nil.mpr (resolve_ne_empty meaningful vars head_ne)
    | cons next rest => simp

/-! ## Rendering -/

theorem namedParts_map (scope : Scope) (vars : List String) (n : Node) :
    namedParts (n.children.map fun c => ⟨c, render scope vars c⟩) =
      n.namedChildren.map fun c => ⟨c, render scope vars c⟩ := by
  unfold namedParts namedChildren
  rw [List.filter_map]
  rfl

theorem render_typeName {scope : Scope} (meaningful : scope.Meaningful) (vars : List String)
    {n : Node} (h : Complete scope.source n) (kind : n.kind ∈ typeNameKinds) :
    Gives (render scope vars n) fun text => text ≠ "" := by
  have visible := h.named kind
  rw [render_eq, assemble]
  simp only [typeNameKinds, List.mem_cons, List.not_mem_nil, or_false] at kind
  rcases kind with kind | kind <;> simp only [kind]
  · exact .ok (resolve_ne_empty meaningful vars (ne_empty_of_not_allBlank visible))
  · exact .ok (resolveScoped_ne_empty meaningful vars visible)

/-- Each part has a text. -/
def Rendered (parts : List Part) : Prop := ∀ p ∈ parts, Gives p.text fun _ => True

theorem Rendered.namedParts {parts : List Part} (h : Rendered parts) :
    Rendered (namedParts parts) :=
  fun p hp => h p (List.mem_filter.mp hp).1

theorem textOr_gives {fault : Fault} {o : Option Part} (found : o.isSome)
    (text : ∀ p, o = some p → Gives p.text fun _ => True) :
    Gives (textOr fault o) fun _ => True := by
  obtain ⟨p, rfl⟩ := Option.isSome_iff_exists.mp found
  exact text p rfl

theorem genericText_gives {parts : List Part} (texts : Rendered parts)
    (base : (Index.namedParts parts).head?.isSome) : Gives (genericText parts) fun _ => True := by
  have joined : ∀ args, Gives (textOr (.childless "generic_type") (Index.namedParts parts).head? >>=
      fun base => pure (base ++ args)) fun _ => True := by
    intro args
    refine Gives.bind (textOr_gives base ?_) fun _ _ => .ok trivial
    intro p first
    exact texts.namedParts p (List.mem_of_head? first)
  unfold genericText
  dsimp only
  split
  · exact joined ""
  · next p found =>
    exact Gives.bind (texts p (List.mem_of_find?_eq_some found)) fun args _ => joined args

theorem argumentsText_gives {parts : List Part} (texts : Rendered parts) :
    Gives (argumentsText parts) fun _ => True :=
  Gives.bind (Gives.mapM fun p hp => texts.namedParts p hp) fun _ _ => .ok trivial

theorem arrayText_gives {parts : List Part} (texts : Rendered parts) (source : Source) (n : Node)
    (element : (parts.find? fun p => p.node.field = some "element").isSome) :
    Gives (arrayText source n parts) fun _ => True := by
  refine Gives.bind (textOr_gives element ?_) fun _ _ => .ok trivial
  intro p found
  exact texts p (List.mem_of_find?_eq_some found)

theorem wildcardText_gives {parts : List Part} (texts : Rendered parts) (n : Node) :
    Gives (wildcardText n parts) fun _ => True := by
  unfold wildcardText
  dsimp only
  split
  · exact .ok trivial
  · next bound last =>
    refine Gives.bind (texts.namedParts bound ?_) fun _ _ => .ok trivial
    exact (List.mem_filter.mp (List.mem_of_getLast? last)).1

/-- A node can be rendered if its children can. -/
theorem assemble_gives {scope : Scope} (vars : List String) {n : Node}
    (h : Complete scope.source n)
    (texts : ∀ c ∈ n.children, Gives (render scope vars c) fun _ => True) :
    Gives (assemble scope vars n (n.children.map fun c => ⟨c, render scope vars c⟩))
      fun _ => True := by
  have rendered : Rendered (n.children.map fun c => ⟨c, render scope vars c⟩) := by
    intro p hp
    obtain ⟨c, hc, rfl⟩ := List.mem_map.mp hp
    exact texts c hc
  unfold assemble
  split
  · exact .ok trivial
  · exact .ok trivial
  · next generic =>
    refine genericText_gives rendered ?_
    obtain ⟨b, first, _⟩ := h.generic generic
    rw [namedParts_map, List.head?_map, Option.mem_def.mp first]
    rfl
  · exact argumentsText_gives rendered
  · next array =>
    refine arrayText_gives rendered scope.source n ?_
    rw [List.find?_map, Option.isSome_map]
    exact h.array array
  · exact wildcardText_gives rendered n
  · next annotated =>
    refine textOr_gives ?_ fun p last => ?_
    · rw [namedParts_map, List.getLast?_map, Option.isSome_map]
      simpa using h.annotated annotated
    · exact rendered.namedParts p (List.mem_of_getLast? last)
  · exact .ok trivial

theorem render_gives {scope : Scope} (vars : List String) (n : Node)
    (h : WellFormed scope.source n) : Gives (render scope vars n) fun _ => True := by
  rw [render_eq]
  exact assemble_gives vars h.complete fun c hc => render_gives vars c (h.child hc)
termination_by sizeOf n
decreasing_by exact sizeOf_lt_of_mem_children hc

/-! ## References -/

theorem wellFormed_unannotated {s : Source} {n : Node} (h : WellFormed s n) :
    WellFormed s (unannotated n) := by
  unfold unannotated
  split
  · cases last : n.namedChildren.getLast? with
    | none => exact h
    | some c => exact h.namedChild (List.mem_of_getLast? last)
  · exact h

theorem render_unannotated {scope : Scope} (vars : List String) {n : Node}
    (h : Complete scope.source n) : render scope vars (unannotated n) = render scope vars n := by
  by_cases annotated : n.kind = "annotated_type"
  · obtain ⟨last, found⟩ : ∃ c, n.namedChildren.getLast? = some c := by
      cases hc : n.namedChildren.getLast? with
      | none => exact absurd (List.getLast?_eq_none_iff.mp hc) (h.annotated annotated)
      | some c => exact ⟨c, rfl⟩
    rw [render_eq scope vars n, assemble]
    simp only [unannotated, annotated, ↓reduceIte, namedParts_map, List.getLast?_map, found,
      Option.map_some, Option.getD_some, textOr]
  · simp [unannotated, annotated]

/-- A type without annotations is classified as it stands. -/
theorem typeRef_of_rendered {scope : Scope} {vars : List String} {n : Node} {text : String}
    (plain : n.kind ≠ "annotated_type") (rendered : render scope vars n = .ok text) :
    typeRef scope vars n = classify scope vars text n := by
  rw [typeRef, rendered, unannotated, if_neg plain]
  rfl

section Classification

variable {scope : Scope} {vars : List String} {n : Node}

theorem render_unannotated_of_ok {text : String} (rendered : render scope vars n = .ok text) :
    render scope vars (unannotated n) = .ok text := by
  unfold unannotated
  split
  · next annotated =>
    rw [render_eq, assemble] at rendered
    simp only [annotated, namedParts_map, List.getLast?_map] at rendered
    cases last : n.namedChildren.getLast? with
    | none => simp [last, textOr] at rendered
    | some c => simpa [last, textOr] using rendered
  · exact rendered

theorem render_generic {text : String} {base : Node} (kind : n.kind = "generic_type")
    (first : n.namedChildren.head? = some base) (rendered : render scope vars n = .ok text) :
    ∃ name, render scope vars base = .ok name ∧
      (text = name ∨ ∃ args ∈ n.children, args.kind = "type_arguments" ∧
        ∃ rest, render scope vars args = .ok rest ∧ text = name ++ rest) := by
  rw [render_eq, assemble] at rendered
  simp only [kind] at rendered
  unfold genericText at rendered
  simp only [namedParts_map, List.head?_map, first, Option.map_some, textOr, List.find?_map]
    at rendered
  split at rendered
  · obtain ⟨nothing, e, rendered⟩ := bind_eq_ok_iff.mp rendered
    obtain ⟨name, named, joined⟩ := bind_eq_ok_iff.mp rendered
    cases e
    cases joined
    exact ⟨name, named, .inl String.append_empty⟩
  · next p found =>
    obtain ⟨c, hc, rfl⟩ := Option.map_eq_some_iff.mp found
    obtain ⟨rest, args, rendered⟩ := bind_eq_ok_iff.mp rendered
    obtain ⟨name, named, joined⟩ := bind_eq_ok_iff.mp rendered
    cases joined
    exact ⟨name, named, .inr ⟨c, List.mem_of_find?_eq_some hc, by simpa using List.find?_some hc,
      rest, args, rfl⟩⟩

theorem exists_base_of_generic {text : String} (kind : n.kind = "generic_type")
    (rendered : render scope vars n = .ok text) : ∃ base, n.namedChildren.head? = some base := by
  cases first : n.namedChildren.head? with
  | some base => exact ⟨base, rfl⟩
  | none =>
    rw [render_eq, assemble] at rendered
    simp only [kind] at rendered
    unfold genericText at rendered
    simp only [namedParts_map, List.head?_map, first, Option.map_none, textOr] at rendered
    split at rendered
    · cases rendered
    · obtain ⟨args, -, failed⟩ := bind_eq_ok_iff.mp rendered
      cases failed

/-- What can be rendered can be classified. -/
theorem classify_of_rendered {text : String} (rendered : render scope vars n = .ok text) :
    (classify scope vars text n).map TypeRef.text = .ok text := by
  unfold classify
  iterate 4
    split
    · rfl
  split
  · next generic =>
    obtain ⟨base, first⟩ := exists_base_of_generic generic rendered
    obtain ⟨name, named, -⟩ := render_generic generic first rendered
    simp only [first, named]
    rfl
  split <;> rfl

theorem text_of_typeRef (scope : Scope) (vars : List String) (n : Node) :
    (typeRef scope vars n).map TypeRef.text = render scope vars n := by
  unfold typeRef
  cases rendered : render scope vars n with
  | error f => rfl
  | ok text => exact classify_of_rendered (render_unannotated_of_ok rendered)

theorem typeRef_readable (vars : List String) (h : WellFormed scope.source n) :
    Gives (typeRef scope vars n) fun _ => True := by
  obtain ⟨text, rendered, -⟩ := render_gives vars n h
  rw [← text_of_typeRef] at rendered
  cases read : typeRef scope vars n with
  | error f => simp [read, Except.map] at rendered
  | ok r => exact .ok trivial

end Classification

theorem classify_gives {scope : Scope} (meaningful : scope.Meaningful) (vars : List String)
    {n : Node} (h : WellFormed scope.source n) {text : String}
    (rendered : render scope vars n = .ok text) :
    Gives (classify scope vars text n) TypeRef.Named := by
  have other : ∀ (k : TypeKind), k ≠ .declared → TypeRef.Named ⟨k, text, none⟩ :=
    fun k hk e => absurd e hk
  unfold classify
  split
  · exact .ok (other _ (by decide))
  split
  · exact .ok (other _ (by decide))
  split
  · exact .ok (other _ (by decide))
  split
  · exact .ok (other _ (by decide))
  split
  · next generic =>
    obtain ⟨base, first, kind⟩ := h.complete.generic generic
    have complete := (h.namedChild (List.mem_of_head? first)).complete
    rw [Option.mem_def.mp first]
    exact ((render_typeName meaningful vars complete kind).mono fun name ne _ =>
      ⟨name, rfl, ne⟩).map
  split
  · next typeName =>
    have kind : n.kind ∈ typeNameKinds := by simpa [typeNameKinds] using typeName
    obtain ⟨name, same, ne⟩ := render_typeName meaningful vars h.complete kind
    cases rendered.symm.trans same
    exact .ok fun _ => ⟨text, rfl, ne⟩
  · exact .ok (other _ (by decide))

theorem typeRef_gives {scope : Scope} (meaningful : scope.Meaningful) (vars : List String)
    {n : Node} (h : WellFormed scope.source n) :
    Gives (typeRef scope vars n) TypeRef.Named := by
  obtain ⟨text, rendered, _⟩ := render_gives vars n h
  unfold typeRef
  rw [rendered]
  exact classify_gives meaningful vars (wellFormed_unannotated h)
    ((render_unannotated vars h.complete).trans rendered)

end Index

end ApiDocs
