import ApiDocs.Index.Signature
import Mathlib.Data.Nat.Find

/-! The comment right before a node. It is found by a walk from the node back over its siblings, and
it is the nearest block comment with nothing but comments up to the node; so two nodes that are no
comments never have one comment in common. -/

namespace ApiDocs

namespace Node

def opensBlock (n : Node) (s : Source) : Bool := ['/', '*'].isPrefixOf (n.text s).toList

/-- The walk of `nearestBlockComment`, with the place at which it ends. -/
def nearestPlace? (s : Source) : List Node → Option Placed
  | [] => none
  | n :: above =>
    if n.isComment then if n.opensBlock s then some ⟨n, above⟩ else nearestPlace? s above
    else none

def Placed.attached? (p : Placed) (s : Source) : Option Placed := nearestPlace? s p.above

/-- A block comment at the one position, and from there up to the other nothing but comments. -/
structure LeadsUp (s : Source) (l : List Node) (i j : Nat) : Prop where
  before : j < i
  block : ∃ c, l[j]? = some c ∧ c.opensBlock s = true
  comments : ∀ m, j ≤ m → m < i → ∃ c, l[m]? = some c ∧ c.isComment = true

/-- The nearest block comment that leads up to a position. -/
def Attached (s : Source) (l : List Node) (i j : Nat) : Prop :=
  LeadsUp s l i j ∧ ∀ m, LeadsUp s l i m → m ≤ j

theorem nearestBlockComment_eq (s : Source) (above : List Node) :
    nearestBlockComment s above = (nearestPlace? s above).map fun q => q.node.text s := by
  induction above with
  | nil => rfl
  | cons n above ih =>
    rw [nearestBlockComment, nearestPlace?, ih]
    by_cases comment : n.isComment = true
    · by_cases block : n.opensBlock s = true
      · have opens : ['/', '*'].isPrefixOf (n.text s).toList = true := block
        simp [comment, block, opens]
      · have opens : ¬ ['/', '*'].isPrefixOf (n.text s).toList = true := block
        simp [comment, block, opens]
    · simp [comment]

theorem Placed.precedingComment_eq (p : Placed) (s : Source) :
    p.precedingComment s = (p.attached? s).map fun q => q.node.text s :=
  nearestBlockComment_eq s p.above

/-! ## Positions -/

theorem getElem?_placedFrom (above l : List Node) (i : Nat) :
    (placedFrom above l)[i]? = l[i]?.map fun n => ⟨n, (l.take i).reverse ++ above⟩ := by
  induction l generalizing above i with
  | nil => simp [placedFrom]
  | cons n l ih =>
    cases i with
    | zero => simp [placedFrom]
    | succ i => simp [placedFrom, ih]

theorem getElem?_placedChildren (n : Node) (i : Nat) :
    n.placedChildren[i]? = n.children[i]?.map fun c => ⟨c, (n.children.take i).reverse⟩ := by
  simp [placedChildren, getElem?_placedFrom]

section

variable {s : Source} {l : List Node} {i j : Nat} {c : Node}

/-- One sibling more: it leads up itself, or lets through what is behind it. -/
theorem leadsUp_succ_iff (here : l[i]? = some c) :
    LeadsUp s l (i + 1) j ↔
      c.isComment = true ∧ ((j = i ∧ c.opensBlock s = true) ∨ LeadsUp s l i j) := by
  constructor
  · rintro ⟨before, ⟨d, found, block⟩, comments⟩
    obtain ⟨c', found', comment⟩ := comments i (by omega) (by omega)
    rw [here] at found'
    cases found'
    refine ⟨comment, ?_⟩
    by_cases same : j = i
    · subst same
      rw [here] at found
      cases found
      exact .inl ⟨rfl, block⟩
    · exact .inr ⟨by omega, ⟨d, found, block⟩, fun m le lt => comments m le (by omega)⟩
  · rintro ⟨comment, ⟨rfl, block⟩ | ⟨before, block, comments⟩⟩
    · refine ⟨by omega, ⟨c, here, block⟩, fun m le lt => ?_⟩
      have same : m = j := by omega
      exact ⟨c, same ▸ here, comment⟩
    · refine ⟨by omega, block, fun m le lt => ?_⟩
      by_cases same : m = i
      · exact ⟨c, same ▸ here, comment⟩
      · exact comments m le (by omega)

theorem attached_succ_of_block (here : l[i]? = some c) (comment : c.isComment = true)
    (block : c.opensBlock s = true) : Attached s l (i + 1) j ↔ j = i := by
  have own : LeadsUp s l (i + 1) i := (leadsUp_succ_iff here).mpr ⟨comment, .inl ⟨rfl, block⟩⟩
  constructor
  · rintro ⟨leads, nearest⟩
    have := leads.before
    have := nearest i own
    omega
  · rintro rfl
    refine ⟨own, fun m leads => ?_⟩
    have := leads.before
    omega

theorem attached_succ_of_line (here : l[i]? = some c) (comment : c.isComment = true)
    (line : c.opensBlock s = false) : Attached s l (i + 1) j ↔ Attached s l i j := by
  have same : ∀ m, LeadsUp s l (i + 1) m ↔ LeadsUp s l i m := by
    intro m
    rw [leadsUp_succ_iff here]
    simp [comment, line]
  simp only [Attached, same]

/-- The walk ends at the comment that is attached to the position. -/
theorem nearestPlace?_eq_some_iff {q : Placed} (le : i ≤ l.length) :
    nearestPlace? s (l.take i).reverse = some q ↔
      ∃ j, (placedFrom [] l)[j]? = some q ∧ Attached s l i j := by
  induction i with
  | zero =>
    refine ⟨fun none => by simp [nearestPlace?] at none, ?_⟩
    rintro ⟨j, _, leads, _⟩
    exact absurd leads.before (Nat.not_lt_zero j)
  | succ i ih =>
    obtain ⟨c, here⟩ : ∃ c, l[i]? = some c := ⟨l[i], List.getElem?_eq_getElem (by omega)⟩
    have walk : (l.take (i + 1)).reverse = c :: (l.take i).reverse := by
      rw [List.take_add_one, here]
      simp
    rw [walk, nearestPlace?]
    by_cases comment : c.isComment = true
    · rw [if_pos comment]
      by_cases block : c.opensBlock s = true
      · rw [if_pos block]
        simp only [attached_succ_of_block here comment block, exists_eq_right]
        simp [getElem?_placedFrom, here]
      · rw [if_neg block]
        simp only [attached_succ_of_line here comment (by simpa using block)]
        exact ih (by omega)
    · rw [if_neg comment]
      simp only [Attached, leadsUp_succ_iff here, comment]
      simp

theorem exists_attached (h : LeadsUp s l i j) : ∃ m, Attached s l i m := by
  classical
  have bound : ∀ {m}, LeadsUp s l i m → m ≤ i := fun leads => Nat.le_of_lt leads.before
  exact ⟨Nat.findGreatest (LeadsUp s l i) i, Nat.findGreatest_spec (bound h) h,
    fun m leads => Nat.le_findGreatest (bound leads) leads⟩

/-- A comment leads up to the next node that is none, and not past it. -/
theorem LeadsUp.le_of_solid {i' : Nat} (h : LeadsUp s l i j) (h' : LeadsUp s l i' j)
    (here : l[i]? = some c) (solid : c.isComment = false) : i' ≤ i := by
  apply Nat.le_of_not_lt
  intro lt
  obtain ⟨d, found, comment⟩ := h'.comments i (Nat.le_of_lt h.before) lt
  rw [here] at found
  cases found
  rw [solid] at comment
  cases comment

end

/-! ## Children -/

section

variable {s : Source} {n : Node} {i : Nat} {p q : Placed}

theorem child_of_placed (h : n.placedChildren[i]? = some p) :
    n.children[i]? = some p.node ∧ p.above = (n.children.take i).reverse := by
  rw [getElem?_placedChildren] at h
  obtain ⟨c, found, rfl⟩ := Option.map_eq_some_iff.mp h
  exact ⟨found, rfl⟩

theorem placed_of_child {c : Node} (h : n.children[i]? = some c) :
    n.placedChildren[i]? = some ⟨c, (n.children.take i).reverse⟩ := by
  rw [getElem?_placedChildren, h]
  rfl

/-- A place knows its position. -/
theorem length_above (h : n.placedChildren[i]? = some p) : p.above.length = i := by
  obtain ⟨found, above⟩ := child_of_placed h
  have lt : i < n.children.length := (List.getElem?_eq_some_iff.mp found).1
  rw [above, List.length_reverse, List.length_take]
  omega

theorem attached?_eq_some_iff (h : n.placedChildren[i]? = some p) :
    p.attached? s = some q ↔
      ∃ j, n.placedChildren[j]? = some q ∧ Attached s n.children i j := by
  obtain ⟨found, above⟩ := child_of_placed h
  have lt : i < n.children.length := (List.getElem?_eq_some_iff.mp found).1
  rw [Placed.attached?, above]
  exact nearestPlace?_eq_some_iff (Nat.le_of_lt lt)

theorem attached?_eq_none_iff (h : n.placedChildren[i]? = some p) :
    p.attached? s = none ↔ ¬ ∃ j, LeadsUp s n.children i j := by
  constructor
  · rintro none ⟨j, leads⟩
    obtain ⟨m, attached⟩ := exists_attached leads
    obtain ⟨c, child, _⟩ := attached.1.block
    have found := (attached?_eq_some_iff h).mpr ⟨m, placed_of_child child, attached⟩
    rw [none] at found
    cases found
  · intro nothing
    cases found : p.attached? s with
    | none => rfl
    | some q =>
      obtain ⟨j, _, attached⟩ := (attached?_eq_some_iff h).mp found
      exact absurd ⟨j, attached.1⟩ nothing

theorem eq_of_attached? {i' : Nat} {p' : Placed} (h : n.placedChildren[i]? = some p)
    (h' : n.placedChildren[i']? = some p') (solid : p.node.isComment = false)
    (solid' : p'.node.isComment = false) (found : p.attached? s = some q)
    (found' : p'.attached? s = some q) : i = i' := by
  obtain ⟨j, place, attached⟩ := (attached?_eq_some_iff h).mp found
  obtain ⟨j', place', attached'⟩ := (attached?_eq_some_iff h').mp found'
  have same : j = j' := (length_above place).symm.trans (length_above place')
  subst same
  apply Nat.le_antisymm
  · exact attached'.1.le_of_solid attached.1 (child_of_placed h').1 solid'
  · exact attached.1.le_of_solid attached'.1 (child_of_placed h).1 solid

theorem commentOf_eq_none (found : p.attached? s = some q)
    (plain : Comment.isDocumentation (q.node.text s) = false) : Index.commentOf s p = none := by
  rw [Index.commentOf, Placed.precedingComment_eq, found]
  simp [Comment.parse?, plain]

end

/-- The comment before a child is the nearest block comment that only comments separate from it, and
there is none if there is no such comment. Two children that are no comments do not share one, and
one that is no documentation hides all that stand before it. -/
theorem attached_exact (s : Source) (n : Node) :
    (∀ i p, n.placedChildren[i]? = some p →
      p.precedingComment s = (p.attached? s).map (fun q => q.node.text s) ∧
      (∀ q, p.attached? s = some q ↔
        ∃ j, n.placedChildren[j]? = some q ∧ Attached s n.children i j) ∧
      (p.attached? s = none ↔ ¬ ∃ j, LeadsUp s n.children i j)) ∧
    (∀ (i i' : Nat) (p p' q : Placed),
      n.placedChildren[i]? = some p → n.placedChildren[i']? = some p' →
      p.node.isComment = false → p'.node.isComment = false →
      p.attached? s = some q → p'.attached? s = some q → i = i') ∧
    (∀ i p j c, n.placedChildren[i]? = some p → Attached s n.children i j →
      n.children[j]? = some c → Comment.isDocumentation (c.text s) = false →
      Index.commentOf s p = none) := by
  refine ⟨fun i p place => ?_, ?_, ?_⟩
  · exact ⟨p.precedingComment_eq s, fun q => attached?_eq_some_iff place,
      attached?_eq_none_iff place⟩
  · intro i i' p p' q place place' solid solid' found found'
    exact eq_of_attached? place place' solid solid' found found'
  · intro i p j c place attached child plain
    have found := (attached?_eq_some_iff place).mpr ⟨j, placed_of_child child, attached⟩
    exact commentOf_eq_none found plain

/-- A plain comment and a line comment between the first documentation and its declaration. -/
def remarkedSource : Source := Source.ofText "/** a *//* b */// c\nA/** d */B"

def remarked : Node :=
  .mk "program" 0 30 true none
    [.mk "block_comment" 0 8 true none [], .mk "block_comment" 8 15 true none [],
      .mk "line_comment" 15 19 true none [], .mk "class_declaration" 20 21 true none [],
      .mk "block_comment" 21 29 true none [], .mk "class_declaration" 29 30 true none []]

theorem attached_exact_remarked :
    Attached remarkedSource remarked.children 3 1 ∧ Attached remarkedSource remarked.children 5 4 ∧
      ∃ p p', remarked.placedChildren[3]? = some p ∧ remarked.placedChildren[5]? = some p' ∧
        Index.commentOf remarkedSource p = none ∧
        p'.precedingComment remarkedSource = some "/** d */" ∧
        (∀ q, p.attached? remarkedSource = some q → p'.attached? remarkedSource ≠ some q) := by
  obtain ⟨chosen, unshared, hidden⟩ := attached_exact remarkedSource remarked
  have first : Attached remarkedSource remarked.children 3 1 :=
    (attached_succ_of_line rfl rfl (by decide +kernel)).mpr
      ((attached_succ_of_block rfl rfl (by decide +kernel)).mpr rfl)
  have second : Attached remarkedSource remarked.children 5 4 :=
    (attached_succ_of_block rfl rfl (by decide +kernel)).mpr rfl
  refine ⟨first, second, _, _, rfl, rfl, ?_, ?_, ?_⟩
  · exact hidden 3 _ 1 _ rfl first rfl (by decide +kernel)
  · obtain ⟨text, some, _⟩ := chosen 5 _ rfl
    rw [text, (some _).mpr ⟨4, rfl, second⟩]
    decide +kernel
  · intro q found found'
    exact absurd (unshared 3 5 _ _ q rfl rfl rfl rfl found found') (by decide)

end Node

end ApiDocs
