import ApiDocs.Comment.TagStarts
import Mathlib.Data.List.TakeWhile

/-! Where the tags of a text stand: each at an at sign with its name right after it, in the order
of the text, and a name never reaches the next tag. -/

namespace ApiDocs.Comment

open Text

theorem tagName?_eq_some {text name : List Char} :
    tagName? text = some name ↔
      ∃ c r, text = c :: r ∧ c.isAlpha = true ∧ name = c :: r.takeWhile isTagNameChar := by
  cases text with
  | nil => simp [tagName?]
  | cons c r =>
    rw [tagName?]
    constructor
    · intro h
      split at h
      · next first => exact ⟨c, r, rfl, first, (Option.some.inj h).symm⟩
      · cases h
    · rintro ⟨_, _, ⟨⟩, first, rfl⟩
      rw [if_pos first]

theorem tagName?_isPrefix {r name : List Char} (h : tagName? r = some name) : name <+: r := by
  obtain ⟨c, r, rfl, _, rfl⟩ := tagName?_eq_some.mp h
  exact List.cons_prefix_cons.mpr ⟨rfl, List.takeWhile_prefix _⟩

theorem at_not_mem_tagName {r name : List Char} (h : tagName? r = some name) : '@' ∉ name := by
  obtain ⟨c, r, rfl, first, rfl⟩ := tagName?_eq_some.mp h
  intro mem
  rcases List.mem_cons.mp mem with rfl | mem
  · revert first
    decide
  · have later : isTagNameChar '@' = true := List.mem_takeWhile_imp mem
    revert later
    decide

theorem startAt_eq_some_iff {k : Cursor} {c : Char} {rest : List Char} {s : TagStart} :
    startAt k c rest = some s ↔
      (c = '@' ∧ k.depth = 0 ∧ k.afterBlank = true) ∧ s.offset = k.offset ∧
        tagName? rest = some s.name ∧ (k.lineBlank || isKnownTag s.name) = true := by
  obtain ⟨offset, name⟩ := s
  unfold startAt
  by_cases here : c = '@' ∧ k.depth = 0 ∧ k.afterBlank = true
  · rw [if_pos here]
    cases hn : tagName? rest with
    | none => simp
    | some found =>
      by_cases allowed : (k.lineBlank || isKnownTag found) = true
      · simp only [Option.bind_some, allowed, ↓reduceIte, Option.some.injEq, TagStart.mk.injEq, here,
          true_and]
        constructor
        · rintro ⟨rfl, rfl⟩
          exact ⟨rfl, rfl, allowed⟩
        · rintro ⟨rfl, rfl, _⟩
          exact ⟨rfl, rfl⟩
      · simp only [Option.bind_some, allowed, Bool.false_eq_true, ↓reduceIte, reduceCtorEq, here,
          true_and, Option.some.injEq, false_iff, not_and]
        rintro rfl rfl
        exact allowed
  · rw [if_neg here]
    simp [here]

/-- The at sign with the name after it, at the offset. -/
def StandsAt (text : List Char) (s : TagStart) : Prop :=
  ∃ before after, text = before ++ '@' :: after ∧ s.offset = before.length ∧
    tagName? after = some s.name

theorem mem_startsFrom {k : Cursor} {r : List Char} {s : TagStart} (h : s ∈ startsFrom k r) :
    ∃ before after, r = before ++ '@' :: after ∧ s.offset = k.offset + before.length ∧
      tagName? after = some s.name := by
  induction r generalizing k with
  | nil => cases h
  | cons c r ih =>
    rw [startsFrom, List.mem_append, Option.mem_toList] at h
    rcases h with h | h
    · obtain ⟨⟨rfl, _⟩, offset, name, _⟩ := startAt_eq_some_iff.mp h
      exact ⟨[], r, rfl, offset, name⟩
    · obtain ⟨before, after, rfl, offset, name⟩ := ih h
      refine ⟨c :: before, after, rfl, ?_, name⟩
      rw [offset, List.length_cons]
      simp only [Cursor.next]
      omega

theorem standsAt_of_mem_tagStarts {text : List Char} {s : TagStart} (h : s ∈ tagStarts text) :
    StandsAt text s := by
  obtain ⟨before, after, split, offset, name⟩ := mem_startsFrom h
  exact ⟨before, after, split, by simpa using offset, name⟩

theorem pairwise_startsFrom (k : Cursor) (r : List Char) :
    (startsFrom k r).Pairwise fun s t => s.offset < t.offset := by
  induction r generalizing k with
  | nil => exact .nil
  | cons c r ih =>
    rw [startsFrom]
    cases h : startAt k c r with
    | none => simpa using ih (k.next c r)
    | some s =>
      refine List.pairwise_cons.mpr ⟨?_, by simpa using ih (k.next c r)⟩
      intro t ht
      obtain ⟨_, offset, _⟩ := startAt_eq_some_iff.mp h
      obtain ⟨before, _, _, offset', _⟩ := mem_startsFrom (k := k.next c r) (by simpa using ht)
      rw [offset, offset']
      simp only [Cursor.next]
      omega

theorem pairwise_tagStarts (text : List Char) :
    (tagStarts text).Pairwise fun s t => s.offset < t.offset :=
  pairwise_startsFrom {} text

/-- No at sign is part of a name. -/
theorem name_le_of_lt {text : List Char} {s t : TagStart} (hs : StandsAt text s)
    (ht : StandsAt text t) (lt : s.offset < t.offset) :
    s.offset + 1 + s.name.length ≤ t.offset := by
  obtain ⟨before, after, split, offset, name⟩ := hs
  obtain ⟨before', after', split', offset', _⟩ := ht
  obtain ⟨tail, rfl⟩ := tagName?_isPrefix name
  apply Nat.le_of_not_lt
  intro inside
  have sign : text[t.offset]? = some '@' := by
    rw [split', offset']
    simp
  have letter : text[t.offset]? = s.name[t.offset - s.offset - 1]? := by
    obtain ⟨n, hn⟩ : ∃ n, t.offset = before.length + (n + 1) := ⟨t.offset - s.offset - 1, by omega⟩
    rw [split, hn, List.getElem?_append_right (by omega), Nat.add_sub_cancel_left,
      List.getElem?_cons_succ, List.getElem?_append_left (by omega)]
    congr 1
    omega
  exact at_not_mem_tagName name (List.mem_of_getElem? (letter.symm.trans sign))

end ApiDocs.Comment
