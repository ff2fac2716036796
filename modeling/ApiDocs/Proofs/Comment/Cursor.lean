import ApiDocs.Proofs.Comment.TagStarts
import Mathlib.Data.List.DropRight
import Mathlib.Data.List.Induction

/-! Reading a text up to a position: what the cursor knows there, told by the text before it. -/

namespace ApiDocs.Comment

open Text

/-- The cursor behind `before`, where `after` follows. -/
def Cursor.past (k : Cursor) : List Char → List Char → Cursor
  | [], _ => k
  | c :: before, after => (k.next c (before ++ after)).past before after

namespace Cursor

theorem past_append (k : Cursor) (x y after : List Char) :
    k.past (x ++ y) after = (k.past x (y ++ after)).past y after := by
  induction x generalizing k with
  | nil => rfl
  | cons c x ih => rw [List.cons_append, past, past, List.append_assoc, ih]

theorem past_snoc (k : Cursor) (x : List Char) (c : Char) (after : List Char) :
    k.past (x ++ [c]) after = (k.past x (c :: after)).next c after := by
  rw [past_append]
  rfl

theorem offset_past (k : Cursor) (before after : List Char) :
    (k.past before after).offset = k.offset + before.length := by
  induction before generalizing k with
  | nil => rfl
  | cons c before ih =>
    rw [past, ih, List.length_cons]
    simp only [next]
    omega

theorem afterBlank_past (k : Cursor) (before after : List Char) :
    (k.past before after).afterBlank = (before.getLast?.map isBlank).getD k.afterBlank := by
  induction before using List.reverseRecOn with
  | nil => rfl
  | append_singleton before c _ =>
    rw [past_snoc, List.getLast?_concat]
    rfl

/-- The text since the last line feed. -/
def line (before : List Char) : List Char := before.rtakeWhile (· ≠ '\n')

theorem line_snoc (before : List Char) (c : Char) :
    line (before ++ [c]) = if c = '\n' then [] else line before ++ [c] := by
  unfold line
  rw [List.rtakeWhile_concat]
  by_cases h : c = '\n' <;> simp [h]

theorem lineBlank_past (before after : List Char) :
    (past {} before after).lineBlank = allBlank (line before) := by
  induction before using List.reverseRecOn generalizing after with
  | nil => rfl
  | append_singleton before c ih =>
    rw [past_snoc, line_snoc]
    by_cases h : c = '\n'
    · simp [next, h, allBlank]
    · have other : (c == '\n') = false := by simpa using h
      simp [next, h, other, ih, allBlank]

end Cursor

/-- A tag starts where the cursor says so. -/
theorem mem_startsFrom_iff {k : Cursor} {r : List Char} {s : TagStart} :
    s ∈ startsFrom k r ↔ ∃ before c after, r = before ++ c :: after ∧
      startAt (k.past before (c :: after)) c after = some s := by
  induction r generalizing k with
  | nil => simp [startsFrom]
  | cons c r ih =>
    rw [startsFrom, List.mem_append, Option.mem_toList, ih]
    constructor
    · rintro (here | ⟨before, d, after, rfl, there⟩)
      · exact ⟨[], c, r, rfl, here⟩
      · exact ⟨c :: before, d, after, rfl, there⟩
    · rintro ⟨before, d, after, split, h⟩
      cases before with
      | nil =>
        cases split
        exact .inl h
      | cons b before =>
        cases split
        exact .inr ⟨before, d, after, rfl, h⟩

end ApiDocs.Comment
