import ApiDocs.Proofs.Comment.Closing
import ApiDocs.Proofs.Comment.Descriptions

/-! Two comments as one, the second behind the first on a line of its own. Where the first leaves no
inline tag open and the second has no body, the tags of the second come behind those of the first,
and nothing else changes. -/

namespace ApiDocs.Comment

open Text Cursor

/-! ## Reading a text with more behind it -/

section Behind

variable {v : List Char} (apart : Separated v)

include apart

theorem startAt_append (k : Cursor) (c : Char) (w : List Char) :
    startAt k c (w ++ v) = startAt k c w := by
  simp only [startAt, tagName?_append apart]

theorem next_append (k : Cursor) (c : Char) (w : List Char) : k.next c (w ++ v) = k.next c w := by
  simp only [Cursor.next, nextDepth, head?_append_eq_at_iff apart]

theorem past_append_right (k : Cursor) (x w : List Char) : k.past x (w ++ v) = k.past x w := by
  induction x generalizing k with
  | nil => rfl
  | cons c x ih => rw [past, past, ← List.append_assoc, next_append apart, ih]

theorem silent_append_right {k : Cursor} {x w : List Char} :
    Silent k x (w ++ v) ↔ Silent k x w := by
  induction x generalizing k with
  | nil => rfl
  | cons c x ih =>
    rw [Silent, Silent, ← List.append_assoc, startAt_append apart, next_append apart, ih]

end Behind

/-! ## Blocks behind blocks -/

/-- A cut text with blanks and then other blocks behind it: the last content goes on with the
blanks. -/
theorem exists_cut_behind {k : Cursor} {head z : List Char} {l next : List Block}
    (cut : Cut k head l) (blank : allBlank z = true) (apart : Separated (z ++ joined next))
    (behind : Cut (k.past (head ++ joined l) (z ++ joined next)) z next) :
    ∃ head' l', head' ++ joined l' = head ++ joined l ++ (z ++ joined next) ∧ Cut k head' l' ∧
      trim head' = trim head ∧ l'.map Block.tag = l.map Block.tag ++ next.map Block.tag := by
  induction l generalizing k head with
  | nil =>
    have text : head ++ joined [] = head := List.append_nil head
    have quiet : Silent k head ([] ++ (z ++ joined next)) := (silent_append_right apart).mpr cut
    rw [text] at behind ⊢
    exact ⟨head ++ z, next, List.append_assoc .., cut_append.mpr ⟨quiet, behind⟩,
      trim_append_blanks head blank, rfl⟩
  | cons b l ih =>
    obtain ⟨quiet, begins, rest⟩ := cut
    have goesOn : k.past (head ++ joined (b :: l)) (z ++ joined next) =
        ((k.past head (joined (b :: l))).past ('@' :: b.name) (b.content ++ joined l)).past
          (b.content ++ joined l) (z ++ joined next) := by
      rw [past_append, past_append_right apart]
      nth_rewrite 2 [joined_cons]
      rw [← List.cons_append, past_append, past_append_right apart]
    rw [goesOn] at behind
    obtain ⟨content, l', inner, cut', trimmed, tags⟩ := ih rest behind
    have whole : joined (⟨b.name, content⟩ :: l') = joined (b :: l) ++ (z ++ joined next) := by
      simp only [joined_cons, inner, List.append_assoc, List.cons_append]
    refine ⟨head, ⟨b.name, content⟩ :: l', ?_, ⟨?_, ?_, ?_⟩, rfl, ?_⟩
    · rw [whole, List.append_assoc]
    · rw [whole]
      exact (silent_append_right apart).mpr quiet
    · rw [whole, past_append_right apart, Begins, inner, ← List.append_assoc,
        startAt_append apart]
      exact begins
    · rw [whole, past_append_right apart, inner, past_append_right apart]
      exact cut'
    · rw [List.map_cons, tags, List.map_cons, List.cons_append, Block.tag, Block.tag, trimmed]

/-! ## The same state at another offset -/

namespace Cursor

def moved (k : Cursor) (n : Nat) : Cursor := { k with offset := n }

theorem past_moved (k : Cursor) (n : Nat) (x u : List Char) :
    (k.moved n).past x u = (k.past x u).moved (n + x.length) := by
  induction x generalizing k n with
  | nil => rfl
  | cons c x ih =>
    have next : (k.moved n).next c (x ++ u) = (k.next c (x ++ u)).moved (n + 1) := rfl
    rw [past, past, next, ih, List.length_cons, Nat.add_assoc, Nat.add_comm 1]

/-- Behind a line feed outside of inline tags all is as at the start of a text. -/
theorem next_newline {k : Cursor} (outside : k.depth = 0) (r : List Char) :
    k.next '\n' r = moved {} (k.offset + 1) := by
  simp [next, nextDepth, moved, outside, isBlank]

end Cursor

theorem startAt_moved (k : Cursor) (n : Nat) (c : Char) (r : List Char) :
    startAt (k.moved n) c r = (startAt k c r).map fun s => ⟨n, s.name⟩ := by
  change (if c = '@' ∧ k.depth = 0 ∧ k.afterBlank then _ else none) = _
  unfold startAt
  split
  · cases tagName? r with
    | none => rfl
    | some name =>
      change (if k.lineBlank || isKnownTag name then _ else none) = _
      simp only [Option.bind_some]
      split <;> rfl
  · rfl

theorem silent_moved {k : Cursor} {n : Nat} {x u : List Char} :
    Silent (k.moved n) x u ↔ Silent k x u := by
  induction x generalizing k n with
  | nil => rfl
  | cons c x ih =>
    have next : (k.moved n).next c (x ++ u) = (k.next c (x ++ u)).moved (n + 1) := rfl
    rw [Silent, Silent, startAt_moved, Option.map_eq_none_iff, next, ih]

theorem Cut.moved {k : Cursor} {head : List Char} {l : List Block} (cut : Cut k head l) (n : Nat) :
    Cut (k.moved n) head l := by
  induction l generalizing k n head with
  | nil => exact silent_moved.mpr cut
  | cons b l ih =>
    obtain ⟨quiet, begins, rest⟩ := cut
    refine ⟨silent_moved.mpr quiet, ?_, ?_⟩
    · rw [past_moved, Begins, startAt_moved, begins]
      rfl
    · rw [past_moved, past_moved]
      exact ih rest _

/-! ## Comments -/

theorem allBlank_of_bodiless {head : List Char} {l : List Block} (cut : Cut {} head l)
    (bodiless : (ofText (head ++ joined l)).body = []) : allBlank head = true := by
  rw [ofText_of_cut cut] at bodiless
  exact trim_eq_nil_iff.mp (segments_eq_nil_iff.mp (List.map_eq_nil_iff.mp bodiless))

theorem ofText_append_line {x y : List Char} (closed : (past {} x []).depth = 0)
    (bodiless : (ofText y).body = []) :
    ofText (x ++ '\n' :: y) =
      { body := (ofText x).body, tags := (ofText x).tags ++ (ofText y).tags } := by
  obtain ⟨head, l, rfl, cut⟩ := exists_cut {} x
  obtain ⟨z, next, rfl, cut'⟩ := exists_cut {} y
  have blank : allBlank ('\n' :: z) = true := by
    rw [allBlank, List.all_cons, Bool.and_eq_true]
    exact ⟨rfl, allBlank_of_bodiless cut' bodiless⟩
  have apart : Separated ('\n' :: z ++ joined next) := separated_append blank (by simp) _
  have outside : ((past {} (head ++ joined l) ('\n' :: z ++ joined next))).depth = 0 := by
    have alone := past_append_right apart {} (head ++ joined l) []
    rw [List.nil_append] at alone
    rw [alone, closed]
  have behind : Cut (past {} (head ++ joined l) ('\n' :: z ++ joined next)) ('\n' :: z) next := by
    refine cut_cons.mpr ⟨by simp [startAt], ?_⟩
    rw [next_newline outside]
    exact cut'.moved _
  obtain ⟨head', l', text, whole, trimmed, tags⟩ := exists_cut_behind cut blank apart behind
  change ofText (head ++ joined l ++ ('\n' :: z ++ joined next)) = _
  rw [← text, ofText_of_cut whole, ofText_of_cut cut, ofText_of_cut cut', trimmed, tags]

/-- Each line is read by itself. -/
theorem undecorate_framed_append (x y : String) :
    undecorate (framed (x ++ "\n" ++ y)).toList =
      undecorate (framed x).toList ++ '\n' :: undecorate (framed y).toList := by
  have text : (x ++ "\n" ++ y).toList = x.toList ++ '\n' :: y.toList := by simp
  have ne : ∀ s, (lines s).map undecorateLine ≠ [] := fun s => by simpa using lines_ne_nil s
  rw [undecorate_framed, undecorate_framed, undecorate_framed, text, lines_append_line,
    List.map_append, unlines_append (ne _) (ne _)]

/-- Two comments as one: the body is that of the first, and the tags are those of both. -/
theorem parse?_append_line {x y : String} {c : Comment}
    (closed : ∀ s, (splitSegments (stripDecoration (framed x))).getLast? = some s →
      ¬ (Opens s.toList ∧ Unclosed s.toList))
    (parsed : parse? (framed y) = some c) (bodiless : c.body = []) :
    ∃ b, parse? (framed x) = some b ∧
      parse? (framed (x ++ "\n" ++ y)) = some { body := b.body, tags := b.tags ++ c.tags } := by
  refine ⟨_, parse?_framed x, ?_⟩
  obtain ⟨_, rfl⟩ := exists_of_parse? parsed
  have outside : (past {} (undecorate (framed x).toList) []).depth = 0 := by
    refine depth_past_of_last fun s last => ?_
    have last' : (splitSegments (stripDecoration (framed x))).getLast? = some (String.ofList s) := by
      rw [splitSegments, stripDecoration, String.toList_ofList, List.getLast?_map, last]
      rfl
    simpa using closed _ last'
  rw [parse?_framed, undecorate_framed_append, ofText_append_line outside bodiless]

/-- A body and a tag that ends with an inline tag. -/
def openingText : String := " a\n * @param p \x7b@b c\x7d"

/-- Two tags, one of them in the middle of a line. -/
def furtherText : String := "  @see d\n * @since @return e "

def furtherTags : Comment :=
  { tags := [{ kind := "see", segments := ["d"] }, { kind := "since" },
      { kind := "return", segments := ["e"] }] }

theorem parse?_append_line_closed :
    (∀ s, (splitSegments (stripDecoration (framed openingText))).getLast? = some s →
        ¬ (Opens s.toList ∧ Unclosed s.toList)) ∧
      parse? (framed furtherText) = some furtherTags ∧ furtherTags.body = [] ∧
        ∃ b, parse? (framed openingText) = some b ∧
          parse? (framed (openingText ++ "\n" ++ furtherText)) =
            some { body := b.body, tags := b.tags ++ furtherTags.tags } := by
  have closed : ∀ s, (splitSegments (stripDecoration (framed openingText))).getLast? = some s →
      ¬ (Opens s.toList ∧ Unclosed s.toList) := by
    intro s last
    have shown : (splitSegments (stripDecoration (framed openingText))).getLast? =
        some "\x7b@b c\x7d" := by decide +kernel
    rw [shown] at last
    cases last
    exact fun open_ => open_.2.1 (by decide)
  have parsed : parse? (framed furtherText) = some furtherTags := by decide +kernel
  exact ⟨closed, parsed, rfl, parse?_append_line closed parsed rfl⟩

end ApiDocs.Comment
