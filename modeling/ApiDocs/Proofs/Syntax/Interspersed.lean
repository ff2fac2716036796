import ApiDocs.Syntax.Node
import Mathlib.Data.List.Forall2

/-! Syntax trees with comments put in. Comments become further children of a node; what was there
keeps its order, and is itself as before up to comments. A child that is picked by what no comment
has is still the one that is picked; a child that is picked as the first or the last one is so as
long as the comments stay behind it or before it. -/

namespace ApiDocs.Node

/-- A comment as it is put among the children of a node. -/
def IsRemark (c : Node) : Prop :=
  (c.kind = "block_comment" ∨ c.kind = "line_comment") ∧ c.field = none

instance (c : Node) : Decidable c.IsRemark :=
  inferInstanceAs (Decidable ((c.kind = "block_comment" ∨ c.kind = "line_comment") ∧
    c.field = none))

/-- Where a comment may be put in, by the kind of the node, its own children before the comment,
the nearest first, and those after it. -/
abbrev Places := String → List Node → List Node → Prop

/-- Anywhere. -/
def anywhere : Places := fun _ _ _ => True

/-- The second list is the first with comments put in at places where they may stand. -/
inductive Interspersed (may : Places) (R : Node → Node → Prop) :
    List Node → String → List Node → List Node → Prop
  | nil {before : List Node} {kind : String} : Interspersed may R before kind [] []
  | keep {before : List Node} {kind : String} {n n' : Node} {l l' : List Node} : R n n' →
      Interspersed may R (n :: before) kind l l' →
      Interspersed may R before kind (n :: l) (n' :: l')
  | remark {before : List Node} {kind : String} {c : Node} {l l' : List Node} : c.IsRemark →
      may kind before l → Interspersed may R before kind l l' →
      Interspersed may R before kind l (c :: l')

/-- The node with comments put in among its children. -/
structure Grown (may : Places) (R : Node → Node → Prop) (n n' : Node) : Prop where
  kind : n'.kind = n.kind
  named : n'.named = n.named
  field : n'.field = n.field
  children : Interspersed may R [] n.kind n.children n'.children

variable {may : Places} {R S : Node → Node → Prop} {kind : String} {before l l' : List Node}

theorem exists_of_rel_some {n : Node} {o : Option Node} (h : Option.Rel R (some n) o) :
    ∃ n', o = some n' ∧ R n n' := by
  cases h with
  | some related => exact ⟨_, rfl, related⟩

theorem map_eq_of_rel {β : Type} {f f' : Node → β} {o o' : Option Node} (h : Option.Rel R o o')
    (same : ∀ n ∈ o, ∀ n', R n n' → f' n' = f n) : o'.map f' = o.map f := by
  cases h with
  | none => rfl
  | some related => exact congrArg some (same _ rfl _ related)

theorem isSome_eq_of_rel {o o' : Option Node} (h : Option.Rel R o o') : o'.isSome = o.isSome := by
  cases h <;> rfl

theorem rel_getD {o o' : Option Node} {n n' : Node} (h : Option.Rel R o o') (related : R n n') :
    R (o.getD n) (o'.getD n') := by
  cases h with
  | none => exact related
  | some inner => exact inner

theorem mapM_eq_of_forall₂ {ε β : Type} {f f' : Node → Except ε β}
    (h : List.Forall₂ R l l') (same : ∀ n n', R n n' → f' n' = f n) : l'.mapM f' = l.mapM f := by
  induction h with
  | nil => rfl
  | cons related _ ih => rw [List.mapM_cons, List.mapM_cons, same _ _ related, ih]

theorem filterMap_eq_of_forall₂ {β : Type} {f f' : Node → Option β} (h : List.Forall₂ R l l')
    (same : ∀ n n', R n n' → f' n' = f n) : l'.filterMap f' = l.filterMap f := by
  induction h with
  | nil => rfl
  | cons related _ ih => rw [List.filterMap_cons, List.filterMap_cons, same _ _ related, ih]

namespace Interspersed

theorem mono (h : Interspersed may R before kind l l')
    (weaker : ∀ n ∈ l, ∀ n', R n n' → S n n') : Interspersed may S before kind l l' := by
  induction h with
  | nil => exact .nil
  | keep related _ ih =>
    obtain ⟨first, others⟩ := List.forall_mem_cons.mp weaker
    exact .keep (first _ related) (ih others)
  | remark isRemark place _ ih => exact .remark isRemark place (ih weaker)

/-- No comment is picked, so the picked children are those that were picked before. -/
theorem filter {p : Node → Bool} (h : Interspersed may R before kind l l')
    (same : ∀ n n', R n n' → p n' = p n) (skips : ∀ c : Node, c.IsRemark → p c = false) :
    List.Forall₂ R (l.filter p) (l'.filter p) := by
  induction h with
  | nil => exact .nil
  | @keep _ _ n n' _ _ related _ ih =>
    rw [List.filter_cons, List.filter_cons, same n n' related]
    split
    · exact .cons related ih
    · exact ih
  | remark isRemark _ _ ih =>
    rw [List.filter_cons_of_neg (by simp [skips _ isRemark])]
    exact ih

theorem find? {p : Node → Bool} (h : Interspersed may R before kind l l')
    (same : ∀ n n', R n n' → p n' = p n) (skips : ∀ c : Node, c.IsRemark → p c = false) :
    Option.Rel R (l.find? p) (l'.find? p) := by
  have picked := h.filter same skips
  rw [← List.head?_filter, ← List.head?_filter]
  generalize l.filter p = m, l'.filter p = m' at picked
  cases picked with
  | nil => exact .none
  | cons related _ => exact .some related

/-- Comments stand behind the first child that can be picked. -/
theorem find?_of_before {p : Node → Bool} (h : Interspersed may R before kind l l')
    (same : ∀ n n', R n n' → p n' = p n)
    (place : ∀ before after, may kind before after → ∃ n ∈ before, p n = true)
    (none_before : ∀ n ∈ before, p n = false) : Option.Rel R (l.find? p) (l'.find? p) := by
  induction h with
  | nil => exact .none
  | @keep before _ n n' _ _ related _ ih =>
    rw [List.find?_cons, List.find?_cons, same n n' related]
    cases picked : p n with
    | true => exact .some related
    | false => exact ih place (List.forall_mem_cons.mpr ⟨picked, none_before⟩)
  | remark _ here _ _ =>
    obtain ⟨n, hn, picked⟩ := place _ _ here
    rw [none_before n hn] at picked
    cases picked

/-- Comments stand before the last child that can be picked. -/
theorem getLast?_of_after {p : Node → Bool} (h : Interspersed may R before kind l l')
    (same : ∀ n n', R n n' → p n' = p n)
    (place : ∀ before after, may kind before after → ∃ n ∈ after, p n = true) :
    Option.Rel R (l.filter p).getLast? (l'.filter p).getLast? := by
  induction h with
  | nil => exact .none
  | @keep _ _ n n' _ _ related _ ih =>
    rw [List.filter_cons, List.filter_cons, same n n' related]
    split
    · rw [List.getLast?_cons, List.getLast?_cons]
      exact .some (rel_getD (ih place) related)
    · exact ih place
  | @remark _ _ c l l' _ here _ ih =>
    obtain ⟨n, hn, picked⟩ := place _ _ here
    have last := ih place
    rw [List.filter_cons]
    split
    · cases found : (l.filter p).getLast? with
      | none =>
        have picked' := List.mem_filter.mpr ⟨hn, picked⟩
        rw [List.getLast?_eq_none_iff.mp found] at picked'
        cases picked'
      | some m =>
        rw [found] at last
        obtain ⟨m', found', inner⟩ := exists_of_rel_some last
        rw [List.getLast?_cons, found']
        exact .some inner
    · exact last

/-- There is no place for a comment. -/
theorem forall₂ (h : Interspersed may R before kind l l')
    (nowhere : ∀ before after, ¬ may kind before after) : List.Forall₂ R l l' := by
  induction h with
  | nil => exact .nil
  | keep related _ ih => exact .cons related (ih nowhere)
  | remark _ here _ _ => exact absurd here (nowhere _ _)

end Interspersed

namespace Grown

variable {n n' : Node}

theorem mono (h : Grown may R n n') (weaker : ∀ c ∈ n.children, ∀ c', R c c' → S c c') :
    Grown may S n n' :=
  ⟨h.kind, h.named, h.field, h.children.mono weaker⟩

theorem childByField? (h : Grown may R n n') (same : ∀ c c', R c c' → c'.field = c.field)
    (field : String) : Option.Rel R (n.childByField? field) (n'.childByField? field) :=
  h.children.find? (fun c c' related => by rw [same c c' related]) fun c isRemark => by
    simp [isRemark.2]

theorem not_mem_of_isRemark {c : Node} (h : c.IsRemark) {kinds : List String}
    (block : "block_comment" ∉ kinds) (line : "line_comment" ∉ kinds) : c.kind ∉ kinds := by
  rcases h.1 with kind | kind <;> rwa [kind]

theorem childOfKind? (h : Grown may R n n') (same : ∀ c c', R c c' → c'.kind = c.kind)
    (kinds : List String) (block : "block_comment" ∉ kinds) (line : "line_comment" ∉ kinds) :
    Option.Rel R (n.childOfKind? kinds) (n'.childOfKind? kinds) :=
  h.children.find? (fun c c' related => by rw [same c c' related]) fun c isRemark => by
    simpa using not_mem_of_isRemark isRemark block line

theorem childrenOfKind (h : Grown may R n n') (same : ∀ c c', R c c' → c'.kind = c.kind)
    (kinds : List String) (block : "block_comment" ∉ kinds) (line : "line_comment" ∉ kinds) :
    List.Forall₂ R (n.childrenOfKind kinds) (n'.childrenOfKind kinds) :=
  h.children.filter (fun c c' related => by rw [same c c' related]) fun c isRemark => by
    simpa using not_mem_of_isRemark isRemark block line

end Grown

end ApiDocs.Node
