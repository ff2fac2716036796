import ApiDocs.Text.Blank

/-! Inline tags. One opens at a brace with an at sign after it; inside it every brace counts, and
it ends with the brace that closes the first, or with the text. -/

namespace ApiDocs.Comment

open Text

/-- Braces open after `c`, of an inline tag; `rest` is the text after it. Outside of inline tags a
brace is plain text unless an at sign follows. -/
def nextDepth (depth : Nat) (c : Char) (rest : List Char) : Nat :=
  if c = '{' ∧ (depth ≠ 0 ∨ rest.head? = some '@') then depth + 1
  else if c = '}' then depth - 1
  else depth

/-- Cuts before each brace that opens an inline tag and after the one that closes it. -/
def pieces (depth : Nat) : List Char → List (List Char)
  | [] => [[]]
  | c :: r =>
    let next := nextDepth depth c r
    if depth = 0 ∧ next ≠ 0 then [] :: (pieces next r).modifyHead (c :: ·)
    else if depth ≠ 0 ∧ next = 0 then [c] :: pieces next r
    else (pieces next r).modifyHead (c :: ·)

def segments (text : List Char) : List (List Char) :=
  (pieces 0 text).filter fun s => !s.isEmpty

def splitSegments (text : String) : List String :=
  (segments text.toList).map String.ofList

theorem pieces_ne_nil (depth : Nat) (text : List Char) : pieces depth text ≠ [] := by
  induction text generalizing depth with
  | nil => simp [pieces]
  | cons c r ih =>
    simp only [pieces]
    split
    · simp
    · split
      · simp
      · simpa using ih _

theorem flatten_modifyHead_cons {l : List (List Char)} (c : Char) (h : l ≠ []) :
    (l.modifyHead (c :: ·)).flatten = c :: l.flatten := by
  cases l with
  | nil => exact absurd rfl h
  | cons s rest => simp

theorem flatten_pieces (depth : Nat) (text : List Char) : (pieces depth text).flatten = text := by
  induction text generalizing depth with
  | nil => simp [pieces]
  | cons c r ih =>
    simp only [pieces]
    split
    · simp [flatten_modifyHead_cons c (pieces_ne_nil _ r), ih]
    · split
      · simp [ih]
      · rw [flatten_modifyHead_cons c (pieces_ne_nil _ r), ih]

theorem flatten_segments (text : List Char) : (segments text).flatten = text := by
  rw [segments, List.flatten_filter_not_isEmpty, flatten_pieces]

end ApiDocs.Comment
