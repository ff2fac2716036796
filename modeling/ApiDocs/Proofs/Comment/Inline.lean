import ApiDocs.Proofs.Comment.Cursor

/-! The two ways of finding inline tags. One counts open braces all along the text, the other looks
for the next brace with an at sign, and from there for the brace that closes it. They cut a text in
the same places, and a position is inside an inline tag just where the running count is not zero. -/

namespace ApiDocs.Comment

open Text

/-- The segment begins like an inline tag. -/
def Opens (s : List Char) : Prop := ['{', '@'] <+: s

instance (s : List Char) : Decidable (Opens s) := inferInstanceAs (Decidable (_ <+: _))

theorem opens_cons {c : Char} {s : List Char} : Opens (c :: s) ↔ c = '{' ∧ s.head? = some '@' := by
  unfold Opens
  rw [List.cons_prefix_cons]
  cases s with
  | nil => simp
  | cons d s => simp [List.cons_prefix_cons, eq_comm]

/-- Outside of inline tags the count starts with an inline tag and with nothing else. -/
theorem nextDepth_zero {c : Char} {r : List Char} : nextDepth 0 c r ≠ 0 ↔ Opens (c :: r) := by
  unfold nextDepth
  rw [opens_cons]
  by_cases h : c = '{' ∧ r.head? = some '@'
  · simp [h]
  · simp only [ne_eq, not_true_eq_false, false_or, h, ↓reduceIte]
    split <;> simp

/-- The segment that covers an offset, when segments are laid end to end. -/
def segmentAt : List (List Char) → Nat → Option (List Char)
  | [], _ => none
  | s :: rest, i => if i < s.length then some s else segmentAt rest (i - s.length)

theorem segmentAt_append (before : List (List Char)) (u v : List Char) (c : Char)
    (after : List (List Char)) :
    segmentAt (before ++ (u ++ c :: v) :: after) (before.flatten.length + u.length) =
      some (u ++ c :: v) := by
  induction before with
  | nil => simp [segmentAt]
  | cons s before ih =>
    have later : ¬ (s ++ before.flatten).length + u.length < s.length := by
      rw [List.length_append]
      omega
    have rest : (s ++ before.flatten).length + u.length - s.length =
        before.flatten.length + u.length := by
      rw [List.length_append]
      omega
    rw [List.cons_append, segmentAt, List.flatten_cons, if_neg later, rest, ih]

/-! ## The piece around an at sign -/

/-- A list of pieces with an at sign behind `before`. Of its first piece only a part may be there,
which continues an inline tag just if `depth` is not zero; any other piece begins like an inline
tag just if the at sign is inside of one. -/
def Located (pieces : List (List Char)) (before : List Char) (depth inside : Nat) : Prop :=
  ∃ earlier u v later, pieces = earlier ++ (u ++ '@' :: v) :: later ∧ earlier.flatten ++ u = before ∧
    (earlier = [] → (inside = 0 ↔ depth = 0) ∧ (depth = 0 → ¬ Opens (u ++ '@' :: v))) ∧
    (earlier ≠ [] → (Opens (u ++ '@' :: v) ↔ inside ≠ 0))

/-- What comes behind the at sign does not matter. -/
theorem opens_at_iff (c : Char) (before x y : List Char) :
    Opens (c :: (before ++ '@' :: x)) ↔ Opens (c :: (before ++ '@' :: y)) := by
  rw [opens_cons, opens_cons]
  cases before <;> rfl

namespace Located

variable {l : List (List Char)} {before : List Char} {depth inside : Nat}

/-- In front of an inline tag: its brace begins a piece. -/
theorem opening (h : Located l before depth inside) (ne : depth ≠ 0) {c : Char}
    (opens : ∀ x, Opens (c :: (before ++ '@' :: x))) :
    Located ([] :: l.modifyHead (c :: ·)) (c :: before) 0 inside := by
  obtain ⟨earlier, u, v, later, rfl, rfl, first, other⟩ := h
  cases earlier with
  | nil =>
    refine ⟨[[]], c :: u, v, later, rfl, rfl, by simp, fun _ => ?_⟩
    have within : inside ≠ 0 := fun e => ne ((first rfl).1.mp e)
    exact iff_of_true (opens v) within
  | cons p earlier =>
    exact ⟨[] :: (c :: p) :: earlier, u, v, later, rfl, rfl, by simp, fun _ => other (by simp)⟩

/-- In front of the end of an inline tag: a new piece begins behind its brace. -/
theorem closing {next : Nat} (h : Located l before next inside) (zero : next = 0) (c : Char) :
    Located ([c] :: l) (c :: before) depth inside := by
  subst zero
  obtain ⟨earlier, u, v, later, rfl, rfl, first, other⟩ := h
  refine ⟨[c] :: earlier, u, v, later, rfl, rfl, by simp, fun _ => ?_⟩
  cases earlier with
  | nil =>
    obtain ⟨outside, plain⟩ := first rfl
    simp [plain rfl, outside.mpr rfl]
  | cons p earlier => exact other (by simp)

/-- In front of any other character: the first piece becomes longer. -/
theorem longer {next : Nat} (h : Located l before next inside) (same : next = 0 ↔ depth = 0)
    {c : Char} (plain : depth = 0 → ∀ x, ¬ Opens (c :: (before ++ '@' :: x))) :
    Located (l.modifyHead (c :: ·)) (c :: before) depth inside := by
  obtain ⟨earlier, u, v, later, rfl, rfl, first, other⟩ := h
  cases earlier with
  | nil =>
    refine ⟨[], c :: u, v, later, rfl, rfl, fun _ => ?_, by simp⟩
    exact ⟨(first rfl).1.trans same, fun zero => plain zero v⟩
  | cons p earlier =>
    exact ⟨(c :: p) :: earlier, u, v, later, rfl, rfl, by simp, fun _ => other (by simp)⟩

end Located

theorem located_pieces (k : Cursor) (before after : List Char) :
    Located (pieces k.depth (before ++ '@' :: after)) before k.depth
      (k.past before ('@' :: after)).depth := by
  induction before generalizing k with
  | nil =>
    have same : nextDepth k.depth '@' after = k.depth := by simp [nextDepth]
    obtain ⟨v, later, cut⟩ := List.exists_cons_of_ne_nil (pieces_ne_nil k.depth after)
    refine ⟨[], [], v, later, ?_, rfl, fun _ => ⟨Iff.rfl, fun _ opens => ?_⟩, by simp⟩
    · simp only [List.nil_append, pieces, same, cut, List.modifyHead_cons]
      rw [if_neg (by omega), if_neg (by omega)]
    · exact absurd (opens_cons.mp opens).1 (by decide)
  | cons c before ih =>
    have step := ih (k.next c (before ++ '@' :: after))
    have count : nextDepth k.depth c (before ++ '@' :: after) =
      (k.next c (before ++ '@' :: after)).depth := rfl
    simp only [Cursor.past, List.cons_append, pieces, count]
    have opens : k.depth = 0 → ((k.next c (before ++ '@' :: after)).depth ≠ 0 ↔
        Opens (c :: (before ++ '@' :: after))) := by
      intro zero
      rw [← count, zero]
      exact nextDepth_zero
    split
    · next here =>
      rw [here.1]
      exact step.opening here.2 fun x =>
        (opens_at_iff c before after x).mp ((opens here.1).mp here.2)
    split
    · next _ here => exact step.closing here.2 c
    · next notOpening notClosing =>
      refine step.longer (by omega) fun zero x opened => ?_
      exact notOpening ⟨zero, (opens zero).mpr ((opens_at_iff c before x after).mp opened)⟩

/-- An at sign is inside an inline tag just where the running count is not zero. -/
theorem segmentAt_segments (before after : List Char) :
    ∃ s, segmentAt (segments (before ++ '@' :: after)) before.length = some s ∧
      (Opens s ↔ (Cursor.past {} before ('@' :: after)).depth ≠ 0) := by
  obtain ⟨earlier, u, v, later, cut, rfl, first, other⟩ := located_pieces {} before after
  refine ⟨u ++ '@' :: v, ?_, ?_⟩
  · have kept : segments ((earlier.flatten ++ u) ++ '@' :: after) =
        (earlier.filter fun s => !s.isEmpty) ++ (u ++ '@' :: v) ::
          later.filter fun s => !s.isEmpty := by
      have nonempty : (u ++ '@' :: v).isEmpty = false := by simp
      change List.filter _ (pieces 0 _) = _
      change pieces 0 _ = _ at cut
      rw [cut, List.filter_append, List.filter_cons, nonempty]
      rfl
    have length : (earlier.flatten ++ u).length =
        (earlier.filter fun s => !s.isEmpty).flatten.length + u.length := by
      rw [List.flatten_filter_not_isEmpty, List.length_append]
    rw [kept, length]
    exact segmentAt_append _ u v '@' _
  · by_cases none : earlier = []
    · obtain ⟨outside, plain⟩ := first none
      simp [plain rfl, outside.mpr rfl]
    · exact other none

/-! ## The search for inline tags -/

/-- Cuts before the next brace with an at sign behind it. -/
def cutAtOpening : List Char → List Char × List Char
  | [] => ([], [])
  | c :: r =>
    if Opens (c :: r) then ([], c :: r) else (c :: (cutAtOpening r).1, (cutAtOpening r).2)

/-- Cuts behind the brace that closes the last open one; every brace counts here. -/
def cutAtClosing (depth : Nat) : List Char → List Char × List Char
  | [] => ([], [])
  | c :: r =>
    if c = '}' ∧ depth = 1 then ([c], r)
    else
      let next := if c = '{' then depth + 1 else if c = '}' then depth - 1 else depth
      (c :: (cutAtClosing next r).1, (cutAtClosing next r).2)

theorem length_cutAtOpening (text : List Char) : (cutAtOpening text).2.length ≤ text.length := by
  induction text with
  | nil => simp [cutAtOpening]
  | cons c r ih =>
    unfold cutAtOpening
    split
    · exact Nat.le_refl _
    · exact Nat.le_succ_of_le ih

theorem opens_of_cutAtOpening {text : List Char} {d : Char} {tag : List Char}
    (h : (cutAtOpening text).2 = d :: tag) : Opens (d :: tag) := by
  induction text with
  | nil => cases h
  | cons c r ih =>
    unfold cutAtOpening at h
    split at h
    · next opens =>
      cases h
      exact opens
    · exact ih h

theorem length_cutAtClosing (depth : Nat) (c : Char) (r : List Char) :
    (cutAtClosing depth (c :: r)).2.length ≤ r.length := by
  induction r generalizing depth c with
  | nil =>
    unfold cutAtClosing
    split <;> simp [cutAtClosing]
  | cons d r ih =>
    unfold cutAtClosing
    split
    · exact Nat.le_refl _
    · exact Nat.le_succ_of_le (ih _ d)

/-- The first brace of an inline tag is the one to close. -/
theorem cutAtClosing_brace (tag : List Char) :
    cutAtClosing 0 ('{' :: tag) = ('{' :: (cutAtClosing 1 tag).1, (cutAtClosing 1 tag).2) := by
  simp [cutAtClosing]

/-- Plain text up to the next opening, then the inline tag, and so on behind it. -/
def searched : List Char → List (List Char)
  | [] => []
  | c :: r =>
    match _cut : (cutAtOpening (c :: r)).2 with
    | [] => [c :: r]
    | d :: tag =>
      (cutAtOpening (c :: r)).1 :: (cutAtClosing 0 (d :: tag)).1 ::
        searched (cutAtClosing 0 (d :: tag)).2
termination_by text => text.length
decreasing_by
  have opening := length_cutAtOpening (c :: r)
  have closing := length_cutAtClosing 0 d tag
  rw [_cut, List.length_cons] at opening
  omega

def withoutEmpty (l : List (List Char)) : List (List Char) := l.filter fun s => !s.isEmpty

theorem pieces_zero (text : List Char) :
    pieces 0 text = match (cutAtOpening text).2 with
      | [] => [text]
      | d :: tag => (cutAtOpening text).1 :: (pieces 1 tag).modifyHead (d :: ·) := by
  induction text with
  | nil => rfl
  | cons c r ih =>
    unfold cutAtOpening
    by_cases opens : Opens (c :: r)
    · have count : nextDepth 0 c r = 1 := by
        obtain ⟨rfl, sign⟩ := opens_cons.mp opens
        simp [nextDepth, sign]
      simp [pieces, count, opens]
    · have count : nextDepth 0 c r = 0 := by
        by_contra ne
        exact opens (nextDepth_zero.mp ne)
      simp only [pieces, count, opens, ↓reduceIte, ne_eq, not_true_eq_false, and_false, false_and,
        ih]
      cases (cutAtOpening r).2 <;> simp

/-- Inside of an inline tag the pieces are its rest and those of the text behind it. -/
theorem pieces_succ (depth : Nat) (text : List Char) :
    ∃ rest, pieces (depth + 1) text = (cutAtClosing (depth + 1) text).1 :: rest ∧
      withoutEmpty rest = withoutEmpty (pieces 0 (cutAtClosing (depth + 1) text).2) := by
  induction text generalizing depth with
  | nil => exact ⟨[], rfl, rfl⟩
  | cons c r ih =>
    by_cases closes : c = '}' ∧ depth = 0
    · obtain ⟨rfl, rfl⟩ := closes
      have count : nextDepth 1 '}' r = 0 := by simp [nextDepth]
      exact ⟨pieces 0 r, by simp [pieces, count, cutAtClosing], by simp [cutAtClosing]⟩
    · -- the count stays above zero, and is the one of the search
      have count : nextDepth (depth + 1) c r =
          if c = '{' then depth + 1 + 1 else if c = '}' then depth + 1 - 1 else depth + 1 := by
        simp [nextDepth]
      obtain ⟨next, hn⟩ : ∃ next, nextDepth (depth + 1) c r = next + 1 := by
        refine Nat.exists_eq_succ_of_ne_zero ?_
        rw [count]
        split
        · omega
        · split
          · next isClosing => exact fun zero => closes ⟨isClosing, by omega⟩
          · omega
      obtain ⟨rest, cut, kept⟩ := ih next
      have goOn : cutAtClosing (depth + 1) (c :: r) =
          (c :: (cutAtClosing (next + 1) r).1, (cutAtClosing (next + 1) r).2) := by
        have notLast : ¬ (c = '}' ∧ depth + 1 = 1) := fun h => closes ⟨h.1, by omega⟩
        simp only [cutAtClosing, notLast, ↓reduceIte, ← count, hn]
      rw [goOn]
      exact ⟨rest, by simp [pieces, hn, cut], kept⟩

theorem withoutEmpty_cons_congr {l l' : List (List Char)} (h : withoutEmpty l = withoutEmpty l')
    (s : List Char) : withoutEmpty (s :: l) = withoutEmpty (s :: l') := by
  unfold withoutEmpty at *
  rw [List.filter_cons, List.filter_cons, h]

/-- Both ways give the same segments. -/
theorem segments_eq_searched (text : List Char) : segments text = withoutEmpty (searched text) := by
  fun_induction searched text with
  | case1 => rfl
  | case2 c r none =>
    change withoutEmpty (pieces 0 (c :: r)) = _
    rw [pieces_zero, none]
  | case3 c r d tag opening ih =>
    obtain ⟨rfl, _⟩ := opens_cons.mp (opens_of_cutAtOpening opening)
    obtain ⟨rest, cut, kept⟩ := pieces_succ 0 tag
    change withoutEmpty (pieces 0 _) = withoutEmpty (searched _) at ih
    change withoutEmpty (pieces 0 (c :: r)) = _
    rw [pieces_zero, opening, cutAtClosing_brace]
    simp only [cut, List.modifyHead_cons]
    rw [cutAtClosing_brace] at ih
    exact withoutEmpty_cons_congr (withoutEmpty_cons_congr (kept.trans ih) _) _

end ApiDocs.Comment
