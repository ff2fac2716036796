import ApiDocs.Index.Signature
import ApiDocs.Proofs.Index.Rendering
import ApiDocs.Proofs.Syntax.Interspersed

/-! Comments inside types. A type is put together from some of its children, and each kind of
type picks them in its own way: the first named one, the last named one, all named ones, one of a
kind, one in a field. Where a comment cannot be picked the type stays the same; as a type argument,
and before or behind a child that is picked by its position, it can. -/

namespace ApiDocs.Index

open Node Text

/-! ## Types with comments put in -/

/-- The kinds of types that are put together from their children. -/
def composedKinds : List String :=
  ["generic_type", "type_arguments", "array_type", "wildcard", "annotated_type"]

/-- Of all other types, of names and of dimensions the whole text is read. -/
def ReadWhole (kind : String) (field : Option String) : Prop :=
  kind ∉ composedKinds ∨ field = some "name" ∨ field = some "dimensions"

instance (kind : String) (field : Option String) : Decidable (ReadWhole kind field) :=
  inferInstanceAs (Decidable (kind ∉ composedKinds ∨ field = some "name" ∨
    field = some "dimensions"))

/-- A type with comments put in, in another text. What is read as a whole still has its text. -/
inductive Commented (may : Places) (s s' : Source) : Node → Node → Prop
  | mk {kind : String} {start stop start' stop' : Nat} {named : Bool} {field : Option String}
      {l l' : List Node} :
      (ReadWhole kind field → s'.slice start' stop' = s.slice start stop) →
      Interspersed may (Commented may s s') [] kind l l' →
      Commented may s s' (.mk kind start stop named field l)
        (.mk kind start' stop' named field l')

/-- What can be the bound of a wildcard. -/
def isBound (c : Node) : Bool :=
  c.named && (!annotationKinds.contains c.kind && c.kind != "super")

/-- What can be the type of a parameter of variable arity. -/
def isSpreadType (c : Node) : Bool :=
  c.named && !("modifiers" :: "variable_declarator" :: annotationKinds).contains c.kind

/-- Places where a comment is not picked in another node's stead. -/
structure Unseen (kind : String) (before after : List Node) : Prop where
  /-- All named children are arguments. -/
  argument : kind ≠ "type_arguments"
  /-- The first named child is the name. -/
  base : kind = "generic_type" → ∃ n ∈ before, n.named = true
  /-- The last named child is the type. -/
  annotated : kind = "annotated_type" → ∃ n ∈ after, n.named = true
  bound : kind = "wildcard" → ∃ n ∈ after, isBound n = true
  spread : kind = "spread_parameter" → ∃ n ∈ before, isSpreadType n = true

instance (kind : String) (before after : List Node) : Decidable (Unseen kind before after) :=
  decidable_of_iff
    (kind ≠ "type_arguments" ∧
      (kind = "generic_type" → ∃ n ∈ before, n.named = true) ∧
      (kind = "annotated_type" → ∃ n ∈ after, n.named = true) ∧
      (kind = "wildcard" → ∃ n ∈ after, isBound n = true) ∧
      (kind = "spread_parameter" → ∃ n ∈ before, isSpreadType n = true))
    ⟨fun ⟨a, b, c, d, e⟩ => ⟨a, b, c, d, e⟩, fun ⟨a, b, c, d, e⟩ => ⟨a, b, c, d, e⟩⟩

/-! ## What the two trees share -/

section Shared

variable {may : Places} {s s' : Source} {n n' : Node}

namespace Commented

theorem grown (h : Commented may s s' n n') : Grown may (Commented may s s') n n' := by
  cases h with
  | mk _ children => exact ⟨rfl, rfl, rfl, children⟩

theorem text (h : Commented may s s' n n') (whole : ReadWhole n.kind n.field) :
    n'.text s' = n.text s := by
  cases h with
  | mk text _ => exact text whole

theorem name (h : Commented may s s' n n') (field : n.field = some "name") :
    n'.text s' = n.text s :=
  h.text (.inr (.inl field))

end Commented

end Shared

/-- The same names in the text with the comments. -/
def Scope.over (scope : Scope) (s' : Source) : Scope := { scope with source := s' }

@[simp] theorem Scope.over_source (scope : Scope) (s' : Source) : (scope.over s').source = s' := rfl

@[simp] theorem Scope.over_resolve (scope : Scope) (s' : Source) :
    (scope.over s').resolve = scope.resolve := rfl

/-! ## Children picked by their position -/

section Positions

variable {R : Node → Node → Prop} {n n' : Node}

theorem arguments_grown {may : Places} (h : Grown may R n n')
    (same : ∀ c c', R c c' → c'.kind = c.kind) :
    Option.Rel R (n.children.find? fun c => c.kind = "type_arguments")
      (n'.children.find? fun c => c.kind = "type_arguments") :=
  h.children.find? (fun c c' related => by rw [same c c' related]) fun c isRemark => by
    rcases isRemark.1 with kind | kind <;> simp [kind]

theorem head?_unseen (h : Grown Unseen R n n') (same : ∀ c c', R c c' → c'.named = c.named)
    (kind : n.kind = "generic_type") :
    Option.Rel R n.namedChildren.head? n'.namedChildren.head? := by
  rw [namedChildren, namedChildren, List.head?_filter, List.head?_filter]
  exact h.children.find?_of_before same (fun _ _ place => place.base kind) (by simp)

theorem getLast?_unseen (h : Grown Unseen R n n') (same : ∀ c c', R c c' → c'.named = c.named)
    (kind : n.kind = "annotated_type") :
    Option.Rel R n.namedChildren.getLast? n'.namedChildren.getLast? :=
  h.children.getLast?_of_after same fun _ _ place => place.annotated kind

theorem bound_unseen (h : Grown Unseen R n n') (same : ∀ c c', R c c' → isBound c' = isBound c)
    (kind : n.kind = "wildcard") :
    Option.Rel R (n.children.filter isBound).getLast? (n'.children.filter isBound).getLast? :=
  h.children.getLast?_of_after same fun _ _ place => place.bound kind

theorem spreadType?_unseen (h : Grown Unseen R n n')
    (same : ∀ c c', R c c' → isSpreadType c' = isSpreadType c)
    (kind : n.kind = "spread_parameter") : Option.Rel R (spreadType? n) (spreadType? n') := by
  have picked : ∀ m : Node, spreadType? m = m.children.find? isSpreadType := fun m => by
    rw [spreadType?, namedChildren, List.find?_filter]
    congr
    funext c
    simp [isSpreadType]
  rw [picked, picked]
  exact h.children.find?_of_before same (fun _ _ place => place.spread kind) (by simp)

theorem dimensionsText_grown {may : Places} {s s' : Source} (h : Grown may R n n')
    (same : ∀ c c', R c c' → c'.field = c.field)
    (text : ∀ c c', c.field = some "dimensions" → R c c' → c'.text s' = c.text s) :
    (n'.childByField? "dimensions").map (dimensionsText s') =
      (n.childByField? "dimensions").map (dimensionsText s) :=
  map_eq_of_rel (h.childByField? same "dimensions") fun d found d' related => by
    have known : d.field = some "dimensions" := by simpa using List.find?_some found
    rw [dimensionsText, dimensionsText, text d d' known related]

end Positions

/-! ## Types -/

section Types

variable {scope : Scope} {s' : Source} {vars : List String}

/-- A type with comments put in that renders as before. -/
def Alike (scope : Scope) (s' : Source) (vars : List String) (c c' : Node) : Prop :=
  Commented Unseen scope.source s' c c' ∧ render (scope.over s') vars c' = render scope vars c

theorem Alike.kind {c c' : Node} (h : Alike scope s' vars c c') : c'.kind = c.kind :=
  h.1.grown.kind

theorem Alike.named {c c' : Node} (h : Alike scope s' vars c c') : c'.named = c.named :=
  h.1.grown.named

theorem Alike.field {c c' : Node} (h : Alike scope s' vars c c') : c'.field = c.field :=
  h.1.grown.field

theorem textOr_alike {o o' : Option Node} (h : Option.Rel (Alike scope s' vars) o o')
    (fault : Fault) :
    textOr fault (o'.map fun c => ⟨c, render (scope.over s') vars c⟩) =
      textOr fault (o.map fun c => ⟨c, render scope vars c⟩) := by
  cases h with
  | none => rfl
  | some alike => exact alike.2

theorem genericText_alike {n n' : Node} (h : Grown Unseen (Alike scope s' vars) n n')
    (kind : n.kind = "generic_type") :
    genericText (n'.children.map fun c => ⟨c, render (scope.over s') vars c⟩) =
      genericText (n.children.map fun c => ⟨c, render scope vars c⟩) := by
  have base := textOr_alike (head?_unseen h (fun _ _ alike => alike.named) kind)
    (.childless "generic_type")
  have args := arguments_grown h fun _ _ alike => alike.kind
  unfold genericText
  simp only [namedParts_map, List.head?_map, List.find?_map, Function.comp_def, base]
  generalize n.children.find? _ = o, n'.children.find? _ = o' at args ⊢
  cases args with
  | none => rfl
  | some alike => simp only [Option.map_some, alike.2]

theorem argumentsText_alike {n n' : Node} (h : Grown Unseen (Alike scope s' vars) n n')
    (kind : n.kind = "type_arguments") :
    argumentsText (n'.children.map fun c => ⟨c, render (scope.over s') vars c⟩) =
      argumentsText (n.children.map fun c => ⟨c, render scope vars c⟩) := by
  have all := h.children.forall₂ fun _ _ place => place.argument kind
  have picked : List.Forall₂ (Alike scope s' vars) n.namedChildren n'.namedChildren :=
    List.rel_filter (fun _ _ alike => by simp [alike.named]) all
  have texts := mapM_eq_of_forall₂ picked fun _ _ alike => alike.2
  unfold argumentsText
  rw [namedParts_map, namedParts_map, List.mapM_map, List.mapM_map]
  exact congrArg (fun texts => texts >>= fun l => pure ("<" ++ ",".intercalate l ++ ">")) texts

theorem arrayText_alike {n n' : Node} (h : Grown Unseen (Alike scope s' vars) n n') :
    arrayText s' n' (n'.children.map fun c => ⟨c, render (scope.over s') vars c⟩) =
      arrayText scope.source n (n.children.map fun c => ⟨c, render scope vars c⟩) := by
  have element := textOr_alike (h.childByField? (fun _ _ alike => alike.field) "element")
    (.missing "element" "array_type")
  have dims := dimensionsText_grown h (fun _ _ alike => alike.field) fun c c' known alike =>
    alike.1.text (.inr (.inr known))
  unfold arrayText
  rw [dims]
  simp only [List.find?_map, Function.comp_def]
  rw [childByField?, childByField?] at element
  rw [element]

theorem wildcardText_alike {n n' : Node} (h : Grown Unseen (Alike scope s' vars) n n')
    (kind : n.kind = "wildcard") :
    wildcardText n' (n'.children.map fun c => ⟨c, render (scope.over s') vars c⟩) =
      wildcardText n (n.children.map fun c => ⟨c, render scope vars c⟩) := by
  have bounds : ∀ (m : Node) (texts : Node → Except Fault String),
      ((namedParts (m.children.map fun c => ⟨c, texts c⟩)).filter fun p =>
        !annotationKinds.contains p.node.kind && p.node.kind != "super").getLast? =
      (m.children.filter isBound).getLast?.map fun c => ⟨c, texts c⟩ := by
    intro m texts
    rw [namedParts, List.filter_filter, List.filter_map, List.getLast?_map]
    congr 3
    funext c
    exact Bool.and_comm _ _
  have bound := bound_unseen h (fun c c' alike => by simp only [isBound, alike.named, alike.kind])
    kind
  have keyword := isSome_eq_of_rel
    (h.childOfKind? (fun _ _ alike => alike.kind) ["super"] (by decide) (by decide))
  unfold wildcardText
  simp only [bounds]
  generalize (n.children.filter isBound).getLast? = o,
    (n'.children.filter isBound).getLast? = o' at bound ⊢
  cases bound with
  | none => rfl
  | some alike =>
    simp only [Option.map_some, alike.2, keyword]

/-- A type renders as before if its children do. -/
theorem assemble_alike {n n' : Node} (h : Commented Unseen scope.source s' n n')
    (grown : Grown Unseen (Alike scope s' vars) n n') :
    assemble (scope.over s') vars n' (n'.children.map fun c => ⟨c, render (scope.over s') vars c⟩) =
      assemble scope vars n (n.children.map fun c => ⟨c, render scope vars c⟩) := by
  unfold assemble
  rw [grown.kind]
  split
  · next kind => rw [Scope.over_source, h.text (.inl (by rw [kind]; decide)), Scope.over_resolve]
  · next kind => rw [Scope.over_source, h.text (.inl (by rw [kind]; decide))]; rfl
  · next kind => exact genericText_alike grown kind
  · next kind => exact argumentsText_alike grown kind
  · next kind => exact arrayText_alike grown
  · next kind => exact wildcardText_alike grown kind
  · next kind =>
    rw [namedParts_map, namedParts_map, List.getLast?_map, List.getLast?_map]
    exact textOr_alike (getLast?_unseen grown (fun _ _ alike => alike.named) kind) _
  · next other₁ other₂ other₃ other₄ other₅ other₆ other₇ =>
    have whole : n.kind ∉ composedKinds := by
      simp only [composedKinds, List.mem_cons, List.not_mem_nil, or_false, not_or]
      exact ⟨other₃, other₄, other₅, other₆, other₇⟩
    rw [Scope.over_source, h.text (.inl whole)]

theorem render_commented (n n' : Node) (h : Commented Unseen scope.source s' n n') :
    render (scope.over s') vars n' = render scope vars n := by
  rw [render_eq, render_eq]
  exact assemble_alike h <|
    h.grown.mono fun c hc c' related => ⟨related, render_commented c c' related⟩
termination_by sizeOf n
decreasing_by exact sizeOf_lt_of_mem_children hc

theorem unannotated_commented {s : Source} {n n' : Node} (h : Commented Unseen s s' n n') :
    Commented Unseen s s' (unannotated n) (unannotated n') := by
  unfold unannotated
  rw [h.grown.kind]
  split
  · next kind =>
    exact rel_getD (getLast?_unseen h.grown (fun _ _ related => related.grown.named) kind) h
  · exact h

theorem classify_commented {n n' : Node} (h : Commented Unseen scope.source s' n n')
    (text : String) : classify (scope.over s') vars text n' = classify scope vars text n := by
  have same := h.grown.kind
  by_cases identifier : n.kind = "type_identifier"
  · have whole := h.text (.inl (by rw [identifier]; decide))
    simp [classify, same, identifier, whole]
  by_cases generic : n.kind = "generic_type"
  · have base := head?_unseen h.grown (fun _ _ related => related.grown.named) generic
    simp only [classify, same, generic]
    generalize n.namedChildren.head? = o, n'.namedChildren.head? = o' at base ⊢
    cases base with
    | none => rfl
    | some related => simp [render_commented _ _ related]
  · simp [classify, same, identifier, generic]

theorem typeRef_commented {n n' : Node} (h : Commented Unseen scope.source s' n n') :
    typeRef (scope.over s') vars n' = typeRef scope vars n := by
  rw [typeRef, typeRef, render_commented n n' h]
  exact bind_congr fun text => classify_commented (unannotated_commented h) text

end Types

end ApiDocs.Index
