import ApiDocs.Comment.Parse
import ApiDocs.Proofs.Comment.Silence

/-! A text as what stands before its first block tag, and the blocks, each with a tag in front.
Every text can be cut so, and the cut settles what is read from the text. -/

namespace ApiDocs.Comment

open Text

/-- A tag name and the text from there to the next tag. -/
structure Block where
  name : List Char
  content : List Char

def Block.text (b : Block) : List Char := '@' :: (b.name ++ b.content)

def Block.tag (b : Block) : Tag := Tag.ofSection b.name (trim b.content)

def joined (l : List Block) : List Char := l.flatMap Block.text

theorem joined_cons (b : Block) (l : List Block) :
    joined (b :: l) = '@' :: (b.name ++ (b.content ++ joined l)) := by
  simp [joined, Block.text]

theorem infix_joined {b : Block} {l : List Block} (h : b ∈ l) : b.content <:+: joined l := by
  obtain ⟨before, after, rfl⟩ := List.append_of_mem h
  exact ⟨joined before ++ '@' :: b.name, joined after, by simp [joined, Block.text]⟩

/-- The tag that begins a block, where the cursor stands. -/
def Begins (k : Cursor) (b : Block) (after : List Char) : Prop :=
  startAt k '@' (b.name ++ (b.content ++ after)) = some ⟨k.offset, b.name⟩

/-- In `head` and then the blocks, tags start at the blocks and nowhere else. -/
def Cut (k : Cursor) (head : List Char) : List Block → Prop
  | [] => Silent k head []
  | b :: l =>
    Silent k head (joined (b :: l)) ∧
      Begins (k.past head (joined (b :: l))) b (joined l) ∧
      Cut ((k.past head (joined (b :: l))).past ('@' :: b.name) (b.content ++ joined l)) b.content l

theorem cut_append {k : Cursor} {x y : List Char} {l : List Block} :
    Cut k (x ++ y) l ↔ Silent k x (y ++ joined l) ∧ Cut (k.past x (y ++ joined l)) y l := by
  cases l with
  | nil => simp only [Cut, silent_append]; rfl
  | cons b l => simp only [Cut, silent_append, Cursor.past_append, and_assoc]

theorem cut_cons {k : Cursor} {c : Char} {y : List Char} {l : List Block} :
    Cut k (c :: y) l ↔
      startAt k c (y ++ joined l) = none ∧ Cut (k.next c (y ++ joined l)) y l := by
  have h := cut_append (k := k) (x := [c]) (y := y) (l := l)
  simpa [Silent, Cursor.past] using h

/-! ## Every text has its cut -/

/-- The name belongs to what comes before the next tag. -/
theorem name_in_front {name head rest : List Char} {l : List Block} (noSign : '@' ∉ name)
    (split : name ++ rest = head ++ joined l) :
    ∃ content, head = name ++ content ∧ rest = content ++ joined l := by
  rcases List.append_eq_append_iff.mp split with ⟨content, rfl, rfl⟩ | ⟨u, rfl, inside⟩
  · exact ⟨content, rfl, rfl⟩
  · cases u with
    | nil => exact ⟨[], by simp, by simpa using inside.symm⟩
    | cons c u =>
      cases l with
      | nil => simp [joined] at inside
      | cons b l =>
        rw [joined_cons, List.cons_append, List.cons.injEq] at inside
        simp [← inside.1] at noSign

theorem exists_cut (k : Cursor) (text : List Char) :
    ∃ head l, text = head ++ joined l ∧ Cut k head l := by
  induction text generalizing k with
  | nil => exact ⟨[], [], rfl, trivial⟩
  | cons c r ih =>
    obtain ⟨head, l, rfl, cut⟩ := ih (k.next c r)
    cases start : startAt k c (head ++ joined l) with
    | none => exact ⟨c :: head, l, rfl, cut_cons.mpr ⟨start, cut⟩⟩
    | some s =>
      obtain ⟨offset, name⟩ := s
      obtain ⟨⟨rfl, _⟩, rfl, found, _⟩ := startAt_eq_some_iff.mp start
      obtain ⟨rest, split⟩ := tagName?_isPrefix found
      obtain ⟨content, rfl, rfl⟩ := name_in_front (at_not_mem_tagName found) split
      rw [List.append_assoc] at *
      exact ⟨[], ⟨name, content⟩ :: l, (joined_cons ⟨name, content⟩ l).symm,
        trivial, start, (cut_append.mp cut).2⟩

/-! ## What is read from a cut text -/

/-- The tags of a cut text: the first one is that of the first block. -/
theorem startsFrom_cut {k : Cursor} {head : List Char} {b : Block} {l : List Block}
    (cut : Cut k head (b :: l)) :
    startsFrom k (head ++ joined (b :: l)) =
      ⟨k.offset + head.length, b.name⟩ ::
        startsFrom ((k.past head (joined (b :: l))).past ('@' :: b.name) (b.content ++ joined l))
          (b.content ++ joined l) := by
  obtain ⟨quiet, begins, _⟩ := cut
  obtain ⟨_, _, name, _⟩ := startAt_eq_some_iff.mp begins
  have inName := silent_of_not_mem (at_not_mem_tagName name)
    ((k.past head (joined (b :: l))).next '@' (b.name ++ (b.content ++ joined l)))
    (b.content ++ joined l)
  rw [quiet.startsFrom]
  nth_rewrite 2 [joined_cons]
  rw [startsFrom, begins, inName.startsFrom, Cursor.offset_past]
  rfl

theorem slice_middle (x y z : List Char) :
    slice (x ++ (y ++ z)) x.length (x ++ y).length = y := by
  rw [slice, ← List.append_assoc, List.take_left, List.drop_left]

theorem stop_and_sections_of_cut {k : Cursor} (before : List Char) {head : List Char}
    {l : List Block} (here : k.offset = before.length) (cut : Cut k head l) :
    stop (before ++ (head ++ joined l)) (startsFrom k (head ++ joined l)) =
        (before ++ head).length ∧
      sections (before ++ (head ++ joined l)) (startsFrom k (head ++ joined l)) =
        l.map fun b => (b.name, trim b.content) := by
  induction l generalizing k before head with
  | nil =>
    have none : startsFrom k (head ++ joined []) = [] := Silent.startsFrom cut
    rw [none]
    simp [joined, stop, sections]
  | cons b l ih =>
    have text : before ++ (head ++ joined (b :: l)) =
        (before ++ head ++ '@' :: b.name) ++ (b.content ++ joined l) := by
      simp [joined_cons]
    have front : (before ++ head ++ '@' :: b.name).length =
        k.offset + head.length + 1 + b.name.length := by
      simp only [List.length_append, List.length_cons, here]
      omega
    obtain ⟨stops, rest⟩ := ih (before ++ head ++ '@' :: b.name)
      (by rw [Cursor.offset_past, Cursor.offset_past, front, List.length_cons]; omega) cut.2.2
    rw [startsFrom_cut cut]
    refine ⟨?_, ?_⟩
    · simp [stop, here]
    · rw [text, sections, ← front, stops, rest, slice_middle, List.map_cons]

theorem ofText_of_cut {head : List Char} {l : List Block} (cut : Cut {} head l) :
    ofText (head ++ joined l) =
      { body := (segments (trim head)).map String.ofList
        tags := l.map Block.tag } := by
  obtain ⟨stops, sects⟩ := stop_and_sections_of_cut (k := {}) [] rfl cut
  simp only [List.nil_append] at stops sects
  simp only [ofText, tagStarts, bodyText, stops, sects, List.take_left, List.map_map]
  rfl

end ApiDocs.Comment
