import ApiDocs.Index.Contribution

/-! Syntax trees that lack nothing a declaration needs, which is what a parser promises of a source
without mistakes. The promise is about every node of the tree, so it passes on to subtrees. -/

namespace ApiDocs

namespace Node

mutual

/-- The node and all nodes below it. -/
def subtree : Node → List Node
  | mk kind start stop named field children =>
    mk kind start stop named field children :: subtrees children

def subtrees : List Node → List Node
  | [] => []
  | n :: rest => n.subtree ++ subtrees rest

end

theorem self_mem_subtree (n : Node) : n ∈ n.subtree := by
  cases n
  simp [subtree]

theorem subtrees_eq_flatMap (l : List Node) : subtrees l = l.flatMap subtree := by
  induction l with
  | nil => rfl
  | cons n rest ih => rw [subtrees, ih, List.flatMap_cons]

theorem mem_subtree_of_mem_children {n c d : Node} (hc : c ∈ n.children) (hd : d ∈ c.subtree) :
    d ∈ n.subtree := by
  cases n with
  | mk kind start stop named field children =>
    rw [subtree, subtrees_eq_flatMap]
    exact List.mem_cons_of_mem _ (List.mem_flatMap.mpr ⟨c, hc, hd⟩)

end Node

namespace Index

open Node Text

def typeNameKinds : List String := ["type_identifier", "scoped_type_identifier"]

/-- The annotations among the modifiers. -/
def annotationsOf (n : Node) : List Node :=
  ((n.childOfKind? ["modifiers"]).map fun m => m.childrenOfKind annotationKinds).getD []

/-- The node has the parts that its kind calls for. -/
structure Complete (s : Source) (n : Node) : Prop where
  package : n.kind = "package_declaration" → (n.childOfKind? nameKinds).isSome
  typeName : n.kind ∈ typeDeclarationKinds → (n.childByField? "name").isSome
  signature : n.kind ∈ methodKinds →
    (n.childByField? "type").isSome ∧ (n.childByField? "name").isSome
  annotations : n.kind ∈ methodKinds → ∀ a ∈ annotationsOf n, (a.childByField? "name").isSome
  parameter : n.kind = "formal_parameter" →
    (n.childByField? "type").isSome ∧ (n.childByField? "name").isSome
  spreadName : n.kind = "spread_parameter" →
    ((n.childOfKind? ["variable_declarator"]).bind fun d => d.childByField? "name").isSome
  spreadType : n.kind = "spread_parameter" → (spreadType? n).isSome
  generic : n.kind = "generic_type" →
    ∃ b ∈ n.namedChildren.head?, b.kind ∈ typeNameKinds
  annotated : n.kind = "annotated_type" → n.namedChildren ≠ []
  array : n.kind = "array_type" → (n.childByField? "element").isSome
  named : n.kind ∈ typeNameKinds → allBlank (n.text s).toList = false

instance (s : Source) (n : Node) : Decidable (Complete s n) :=
  decidable_of_iff
    ((n.kind = "package_declaration" → (n.childOfKind? nameKinds).isSome) ∧
      (n.kind ∈ typeDeclarationKinds → (n.childByField? "name").isSome) ∧
      (n.kind ∈ methodKinds →
        (n.childByField? "type").isSome ∧ (n.childByField? "name").isSome) ∧
      (n.kind ∈ methodKinds → ∀ a ∈ annotationsOf n, (a.childByField? "name").isSome) ∧
      (n.kind = "formal_parameter" →
        (n.childByField? "type").isSome ∧ (n.childByField? "name").isSome) ∧
      (n.kind = "spread_parameter" →
        ((n.childOfKind? ["variable_declarator"]).bind fun d => d.childByField? "name").isSome) ∧
      (n.kind = "spread_parameter" → (spreadType? n).isSome) ∧
      (n.kind = "generic_type" →
        ∃ b ∈ n.namedChildren.head?, b.kind ∈ typeNameKinds) ∧
      (n.kind = "annotated_type" → n.namedChildren ≠ []) ∧
      (n.kind = "array_type" → (n.childByField? "element").isSome) ∧
      (n.kind ∈ typeNameKinds → allBlank (n.text s).toList = false))
    ⟨fun ⟨a, b, c, d, e, f, g, h, i, j, k⟩ => ⟨a, b, c, d, e, f, g, h, i, j, k⟩,
      fun ⟨a, b, c, d, e, f, g, h, i, j, k⟩ => ⟨a, b, c, d, e, f, g, h, i, j, k⟩⟩

def WellFormed (s : Source) (n : Node) : Prop := ∀ d ∈ n.subtree, Complete s d

instance (s : Source) (n : Node) : Decidable (WellFormed s n) :=
  inferInstanceAs (Decidable (∀ d ∈ n.subtree, Complete s d))

def SourceUnit.WellFormed (u : SourceUnit) : Prop := Index.WellFormed u.source u.tree

instance (u : SourceUnit) : Decidable u.WellFormed :=
  inferInstanceAs (Decidable (Index.WellFormed u.source u.tree))

namespace WellFormed

variable {s : Source} {n : Node}

theorem complete (h : WellFormed s n) : Complete s n := h n n.self_mem_subtree

theorem child (h : WellFormed s n) {c : Node} (hc : c ∈ n.children) : WellFormed s c :=
  fun d hd => h d (mem_subtree_of_mem_children hc hd)

theorem namedChild (h : WellFormed s n) {c : Node} (hc : c ∈ n.namedChildren) : WellFormed s c :=
  h.child (List.mem_filter.mp hc).1

theorem childByField (h : WellFormed s n) {f : String} {c : Node}
    (hc : n.childByField? f = some c) : WellFormed s c :=
  h.child (mem_children_of_childByField hc)

theorem childOfKind (h : WellFormed s n) {kinds : List String} {c : Node}
    (hc : n.childOfKind? kinds = some c) : WellFormed s c :=
  h.child (List.mem_of_find?_eq_some hc)

theorem member (h : WellFormed s n) {p : Placed} (hp : p ∈ members n) : WellFormed s p.node := by
  obtain ⟨body, hbody, q, hq, hp⟩ := mem_members_iff.mp hp
  have inner := (h.childByField hbody).child (mem_children_of_mem_namedPlaced hq)
  split at hp
  · exact inner.child (mem_children_of_mem_namedPlaced hp)
  · rw [hp]
    exact inner

end WellFormed

end Index

end ApiDocs
