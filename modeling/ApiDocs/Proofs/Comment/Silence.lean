import ApiDocs.Proofs.Comment.Detection
import ApiDocs.Proofs.Text.Trim

/-! Stretches of a text in which no block tag starts. A cursor that allows no more than another
finds no tag where the other finds none, whatever follows the stretch, so long as a blank comes
first. -/

namespace ApiDocs.Comment

open Text

/-- No block tag starts in the stretch, with `after` behind it. -/
def Silent (k : Cursor) : List Char → List Char → Prop
  | [], _ => True
  | c :: x, after => startAt k c (x ++ after) = none ∧ Silent (k.next c (x ++ after)) x after

theorem silent_append {k : Cursor} {x y after : List Char} :
    Silent k (x ++ y) after ↔ Silent k x (y ++ after) ∧ Silent (k.past x (y ++ after)) y after := by
  induction x generalizing k with
  | nil => simp [Silent, Cursor.past]
  | cons c x ih =>
    simp only [List.cons_append, Silent, Cursor.past, List.append_assoc, ih, and_assoc]

theorem Silent.startsFrom {k : Cursor} {x after : List Char} (h : Silent k x after) :
    startsFrom k (x ++ after) = Comment.startsFrom (k.past x after) after := by
  induction x generalizing k with
  | nil => rfl
  | cons c x ih =>
    obtain ⟨here, later⟩ := h
    rw [List.cons_append, Comment.startsFrom, here, ih later]
    rfl

theorem silent_of_not_mem {x : List Char} (h : '@' ∉ x) (k : Cursor) (after : List Char) :
    Silent k x after := by
  induction x generalizing k with
  | nil => trivial
  | cons c x ih =>
    rw [List.mem_cons, not_or] at h
    exact ⟨by simp [startAt, Ne.symm h.1], ih h.2 _⟩

/-! ## Blanks -/

/-- The text is over or goes on with a blank. -/
def Separated (u : List Char) : Prop := ∀ c, u.head? = some c → isBlank c = true

theorem separated_append {z : List Char} (blank : allBlank z = true) (ne : z ≠ [])
    (u : List Char) : Separated (z ++ u) := by
  obtain ⟨c, z, rfl⟩ := List.exists_cons_of_ne_nil ne
  intro d first
  cases first
  exact allBlank_iff.mp blank c List.mem_cons_self

/-- The code points of the blanks. -/
def blankCodes : List Nat :=
  List.range' 0x09 5 ++ List.range' 0x1C 5 ++ [0x85, 0xA0, 0x1680] ++ List.range' 0x2000 11 ++
    [0x2028, 0x2029, 0x202F, 0x205F, 0x3000]

theorem toNat_mem_blankCodes {c : Char} (h : isBlank c = true) : c.toNat ∈ blankCodes := by
  simp only [isBlank, Bool.or_eq_true, Bool.and_eq_true, decide_eq_true_eq, beq_iff_eq] at h
  simp only [blankCodes, List.mem_append, List.mem_range'_1, List.mem_cons, List.not_mem_nil,
    or_false]
  omega

theorem not_nameChar_of_isBlank {c : Char} (h : isBlank c = true) :
    isTagNameChar c = false ∧ c.isAlpha = false := by
  have all : ∀ n ∈ blankCodes,
      isTagNameChar (Char.ofNat n) = false ∧ (Char.ofNat n).isAlpha = false := by
    decide +kernel
  have here := all c.toNat (toNat_mem_blankCodes h)
  rwa [Char.ofNat_toNat] at here

theorem solid_signs : isBlank '@' = false ∧ isBlank '{' = false ∧ isBlank '}' = false := by
  decide

theorem tagName?_append {u : List Char} (h : Separated u) (w : List Char) :
    tagName? (w ++ u) = tagName? w := by
  cases w with
  | nil =>
    cases u with
    | nil => rfl
    | cons c u => simp [tagName?, (not_nameChar_of_isBlank (h c rfl)).2]
  | cons c w =>
    have ends : u.takeWhile isTagNameChar = [] :=
      takeWhile_eq_nil_iff_head?.mpr fun d first => (not_nameChar_of_isBlank (h d first)).1
    have same : (w ++ u).takeWhile isTagNameChar = w.takeWhile isTagNameChar := by
      rw [List.takeWhile_append, ends, List.append_nil]
      split
      · next all =>
        have front := List.takeWhile_prefix isTagNameChar (l := w)
        exact (front.eq_of_length all).symm
      · rfl
    rw [List.cons_append, tagName?, tagName?, same]

theorem head?_append_eq_at_iff {u : List Char} (h : Separated u) (w : List Char) :
    (w ++ u).head? = some '@' ↔ w.head? = some '@' := by
  cases w with
  | nil =>
    have no : u.head? ≠ some '@' := fun first => by simpa [solid_signs] using h '@' first
    simp [no]
  | cons c w => simp

/-! ## Quieter cursors -/

namespace Cursor

/-- As deep, and with no more reasons for a tag. -/
structure Quieter (k' k : Cursor) : Prop where
  depth : k'.depth = k.depth
  afterBlank : k'.afterBlank = true → k.afterBlank = true
  lineBlank : k'.lineBlank = true → k.lineBlank = true

variable {k k' : Cursor}

theorem Quieter.startAt {c : Char} {r r' : List Char} (h : Quieter k' k)
    (name : tagName? r' = tagName? r) (silent : Comment.startAt k c r = none) :
    Comment.startAt k' c r' = none := by
  rw [Option.eq_none_iff_forall_ne_some] at *
  intro s found
  obtain ⟨⟨sign, depth, apart⟩, _, found, allowed⟩ := startAt_eq_some_iff.mp found
  refine silent ⟨k.offset, s.name⟩ (startAt_eq_some_iff.mpr ?_)
  refine ⟨⟨sign, h.depth ▸ depth, h.afterBlank apart⟩, rfl, name ▸ found, ?_⟩
  rw [Bool.or_eq_true] at *
  exact allowed.imp_left h.lineBlank

theorem Quieter.next {c : Char} {r r' : List Char} (h : Quieter k' k)
    (sign : r'.head? = some '@' ↔ r.head? = some '@') : Quieter (k'.next c r') (k.next c r) where
  depth := by simp only [Cursor.next, nextDepth, h.depth, sign]
  afterBlank := id
  lineBlank := by
    simp only [Cursor.next, Bool.or_eq_true, Bool.and_eq_true]
    exact Or.imp_right (And.imp_left h.lineBlank)

theorem depth_next_of_plain (k : Cursor) {c : Char} (h : c ≠ '{' ∧ c ≠ '}') (r : List Char) :
    (k.next c r).depth = k.depth := by
  simp [Cursor.next, nextDepth, h]

theorem depth_past_of_plain (k : Cursor) {w : List Char} (h : ∀ c ∈ w, c ≠ '{' ∧ c ≠ '}')
    (after : List Char) : (k.past w after).depth = k.depth := by
  induction w generalizing k with
  | nil => rfl
  | cons c w ih =>
    rw [past, ih _ fun d hd => h d (List.mem_cons_of_mem c hd),
      depth_next_of_plain k (h c List.mem_cons_self)]

theorem plain_of_isBlank {c : Char} (h : isBlank c = true) : c ≠ '{' ∧ c ≠ '}' := by
  constructor
  · rintro rfl
    simp [solid_signs] at h
  · rintro rfl
    simp [solid_signs] at h

theorem depth_past_blanks (k : Cursor) {z : List Char} (h : allBlank z = true)
    (after : List Char) : (k.past z after).depth = k.depth :=
  k.depth_past_of_plain (fun c hc => plain_of_isBlank (allBlank_iff.mp h c hc)) after

theorem lineBlank_past_blanks {z : List Char} (h : allBlank z = true) (after : List Char)
    (blank : k.lineBlank = true) : (k.past z after).lineBlank = true := by
  induction z generalizing k with
  | nil => exact blank
  | cons c z ih =>
    obtain ⟨first, rest⟩ := List.forall_mem_cons.mp (allBlank_iff.mp h)
    exact ih (allBlank_iff.mpr rest) (by simp [Cursor.next, blank, first])

theorem afterBlank_past_blanks {z : List Char} (h : allBlank z = true) (after : List Char)
    (blank : z ≠ [] ∨ k.afterBlank = true) : (k.past z after).afterBlank = true := by
  rw [afterBlank_past]
  cases last : z.getLast? with
  | none =>
    rw [List.getLast?_eq_none_iff] at last
    exact blank.resolve_left fun ne => ne last
  | some c => exact allBlank_iff.mp h c (List.mem_of_getLast? last)

/-- Blanks that are left out. -/
theorem Quieter.past_blanks (h : Quieter k' k) {z : List Char} (blank : allBlank z = true)
    (after : List Char) : Quieter k' (k.past z after) where
  depth := by rw [h.depth, k.depth_past_blanks blank]
  afterBlank own := afterBlank_past_blanks blank after (.inr (h.afterBlank own))
  lineBlank own := lineBlank_past_blanks blank after (h.lineBlank own)

/-- Blanks with one space in their place. -/
theorem Quieter.space (h : Quieter k' k) {z : List Char} (blank : allBlank z = true)
    (ne : z ≠ []) (after after' : List Char) :
    Quieter (k'.next ' ' after') (k.past z after) where
  depth := by
    rw [k.depth_past_blanks blank, k'.depth_next_of_plain (by decide), h.depth]
  afterBlank _ := afterBlank_past_blanks blank after (.inl ne)
  lineBlank own := by
    have before : k'.lineBlank = true ∧ isBlank ' ' = true := by simpa [Cursor.next] using own
    exact lineBlank_past_blanks blank after (h.lineBlank before.1)

/-- Behind an at sign both cursors want the same. -/
theorem quieter_at (h : k'.depth = k.depth) (r r' : List Char) :
    Quieter (k'.next '@' r') (k.next '@' r) where
  depth := by
    rw [k'.depth_next_of_plain (by decide), k.depth_next_of_plain (by decide), h]
  afterBlank := id
  lineBlank := by simp [Cursor.next, solid_signs]

theorem Quieter.past_plain (h : Quieter k' k) {w : List Char}
    (plain : ∀ c ∈ w, c ≠ '{' ∧ c ≠ '}') (after after' : List Char) :
    Quieter (k'.past w after') (k.past w after) := by
  induction w generalizing k k' with
  | nil => exact h
  | cons c w ih =>
    obtain ⟨first, rest⟩ := List.forall_mem_cons.mp plain
    refine ih ⟨?_, id, ?_⟩ rest
    · rw [k'.depth_next_of_plain first, k.depth_next_of_plain first, h.depth]
    · simp only [Cursor.next, Bool.or_eq_true, Bool.and_eq_true]
      exact Or.imp_right (And.imp_left h.lineBlank)

end Cursor

open Cursor

/-- The same stretch, read from a quieter cursor and with another text behind it. -/
theorem Silent.quieter {k k' : Cursor} {w u u' : List Char} (h : Silent k w u)
    (quieter : Quieter k' k) (apart : w ≠ [] → Separated u) (apart' : w ≠ [] → Separated u') :
    Silent k' w u' ∧ Quieter (k'.past w u') (k.past w u) := by
  induction w generalizing k k' with
  | nil => exact ⟨trivial, quieter⟩
  | cons c w ih =>
    obtain ⟨here, later⟩ := h
    have su := apart (by simp)
    have su' := apart' (by simp)
    have name : tagName? (w ++ u') = tagName? (w ++ u) := by
      rw [tagName?_append su, tagName?_append su']
    have sign : (w ++ u').head? = some '@' ↔ (w ++ u).head? = some '@' := by
      rw [head?_append_eq_at_iff su, head?_append_eq_at_iff su']
    obtain ⟨rest, behind⟩ := ih later (quieter.next sign) (fun _ => su) (fun _ => su')
    exact ⟨⟨quieter.startAt name here, rest⟩, behind⟩

end ApiDocs.Comment
