import ApiDocs.Proofs.Comment.Blocks
import ApiDocs.Proofs.Comment.Decomposition
import ApiDocs.Proofs.Comment.Spacing

/-! No block tag starts inside of an inline tag, so where a block tag follows, all inline tags have
their ends. The parts of a comment are cut into segments one by one, each read with no brace open in
front. In the text the same part may stand behind open braces; the count is then never lower. -/

namespace ApiDocs.Comment

open Text

/-! ## The count behind a decomposition -/

theorem nextDepth_plain {c : Char} {s u : List Char} (plain : Plain (c :: s)) (paused : Paused u) :
    nextDepth 0 c (s ++ u) = 0 := by
  by_contra count
  exact not_opens_of_plain plain paused (nextDepth_zero.mp count)

theorem depth_past_of_plainRun {k : Cursor} (outside : k.depth = 0) {s u : List Char} (plain : Plain s)
    (paused : Paused u) : (k.past s u).depth = 0 := by
  induction s generalizing k with
  | nil => exact outside
  | cons c s ih =>
    have next : (k.next c (s ++ u)).depth = 0 := by
      simp only [Cursor.next, outside, nextDepth_plain plain paused]
    exact ih next (plain_cons.mp plain).2

/-- Inside of an inline tag every brace counts. -/
theorem nextDepth_inside {depth : Nat} (inside : depth ≠ 0) (c : Char) (rest : List Char) :
    (nextDepth depth c rest : Int) = depth + balance [c] := by
  rw [nextDepth, balance_single]
  by_cases opening : c = '{'
  · simp [opening, inside]
  · by_cases closing : c = '}'
    · simp only [closing, Char.reduceEq, false_and, ↓reduceIte]
      omega
    · simp [opening, closing]

theorem depth_past_inside {k : Cursor} (inside : k.depth ≠ 0) {s : List Char}
    (open_ : OpenInside k.depth s) (u : List Char) :
    ((k.past s u).depth : Int) = k.depth + balance s := by
  induction s generalizing k with
  | nil => simp [Cursor.past, balance]
  | cons c s ih =>
    obtain ⟨first, rest⟩ := openInside_cons.mp open_
    have next : ((k.next c (s ++ u)).depth : Int) = k.depth + balance [c] :=
      nextDepth_inside inside c (s ++ u)
    rw [← next] at first rest
    rw [Cursor.past, balance_cons]
    by_cases last : s = []
    · subst last
      simpa [Cursor.past, balance] using next
    · have more : (k.next c (s ++ u)).depth ≠ 0 := by
        have := first last
        omega
      have later := ih more rest
      omega

theorem depth_past_inline {k : Cursor} (outside : k.depth = 0) {s : List Char} (opens : Opens s)
    (open_ : OpenInside 0 s) (u : List Char) : ((k.past s u).depth : Int) = balance s := by
  obtain ⟨rest, rfl⟩ := opens
  have one : (k.next '{' ('@' :: rest ++ u)).depth = 1 := by
    simp [Cursor.next, nextDepth, outside]
  have inside : OpenInside (k.next '{' ('@' :: rest ++ u)).depth ('@' :: rest) := by
    rw [one]
    simpa [balance] using (openInside_cons.mp open_).2
  have behind := depth_past_inside (by omega) inside u
  rw [one] at behind
  change (((k.next '{' ('@' :: rest ++ u)).past ('@' :: rest) u).depth : Int) =
    balance ('{' :: '@' :: rest)
  rw [behind, balance_cons '{']
  rfl

theorem not_closed_of_unclosed {s : List Char} (h : Unclosed s) : ¬ Closed s := fun closed =>
  h.1 closed.1

/-- Read with no brace open in front, a text leaves none open just if all its inline tags have their
ends. -/
theorem Decomposes.depth_past_eq_zero_iff {text : List Char} {l : List (List Char)}
    (h : Decomposes text l) {k : Cursor} (outside : k.depth = 0) :
    (k.past text []).depth = 0 ↔ ∀ s ∈ l, Opens s → Closed s := by
  induction l generalizing text k with
  | nil =>
    rw [← h.flatten]
    simpa [Cursor.past] using outside
  | cons s l ih =>
    rw [← h.flatten, List.flatten_cons, Cursor.past_append, List.append_nil, List.forall_mem_cons]
    rcases h.part [] s l rfl with plain | ⟨opens, closed | ⟨last, unclosed⟩⟩
    · have behind := depth_past_of_plainRun outside plain (h.paused plain)
      rw [ih h.tail behind]
      exact ⟨fun rest => ⟨fun opens => absurd plain (not_plain_of_opens opens), rest⟩, And.right⟩
    · have behind := depth_past_inline outside opens closed.2 l.flatten
      rw [ih h.tail (by rw [closed.1] at behind; omega)]
      exact ⟨fun rest => ⟨fun _ => closed, rest⟩, And.right⟩
    · have behind := depth_past_inline outside opens unclosed.2 []
      have open_ := unclosed.1
      subst last
      constructor
      · intro zero
        change (k.past s []).depth = 0 at zero
        omega
      · intro all
        exact absurd (all.1 opens) (not_closed_of_unclosed unclosed)

/-- Only the last inline tag may lack its end. -/
theorem depth_past_of_last {text : List Char}
    (closed : ∀ s, (segments text).getLast? = some s → ¬ (Opens s ∧ Unclosed s)) :
    (Cursor.past {} text []).depth = 0 := by
  have cut := decomposes_segments text
  refine (cut.depth_past_eq_zero_iff rfl).mpr fun s mem opens => ?_
  obtain ⟨before, after, split⟩ := List.append_of_mem mem
  rcases cut.part before s after split with plain | ⟨-, ended | ⟨last, unclosed⟩⟩
  · exact absurd plain (not_plain_of_opens opens)
  · exact ended
  · have isLast : (segments text).getLast? = some s := by
      rw [split, last, List.getLast?_concat]
    exact absurd ⟨opens, unclosed⟩ (closed s isLast)

/-! ## Read from a deeper cursor -/

theorem nextDepth_le {depth depth' : Nat} (le : depth' ≤ depth) (c : Char) {r r' : List Char}
    (sign : r'.head? = some '@' → r.head? = some '@') : nextDepth depth' c r' ≤ nextDepth depth c r := by
  unfold nextDepth
  by_cases opening : c = '{'
  · by_cases counts : depth' ≠ 0 ∨ r'.head? = some '@'
    · have counts' : depth ≠ 0 ∨ r.head? = some '@' := counts.imp (by omega) sign
      simpa [opening, counts, counts'] using le
    · simp only [opening, counts, and_false, ↓reduceIte]
      split <;> simp <;> omega
  · simp only [opening, false_and, ↓reduceIte]
    split <;> omega

/-- With braces open in front the count is never lower, whatever follows the text. -/
theorem depth_past_le {k k' : Cursor} (le : k'.depth ≤ k.depth) (s u : List Char) :
    (k'.past s []).depth ≤ (k.past s u).depth := by
  induction s generalizing k k' with
  | nil => exact le
  | cons c s ih =>
    refine ih (nextDepth_le le c ?_)
    intro sign
    cases s with
    | nil => cases sign
    | cons d s => exact sign

/-- Where no brace is open behind a part of the text, blanks apart, its inline tags have their
ends. -/
theorem closed_of_depth_past {k : Cursor} {before part blanks after : List Char}
    (blank : allBlank blanks = true)
    (zero : (k.past (before ++ (part ++ blanks)) after).depth = 0) :
    ∀ s ∈ segments part, Opens s → Closed s := by
  rw [Cursor.past_append, Cursor.past_append, Cursor.depth_past_blanks _ blank] at zero
  have alone : (Cursor.past {} part []).depth ≤ 0 :=
    Nat.le_trans (depth_past_le (Nat.zero_le _) part (blanks ++ after)) (Nat.le_of_eq zero)
  exact ((decomposes_segments part).depth_past_eq_zero_iff rfl).mp (Nat.le_zero.mp alone)

/-! ## Comments -/

/-- Each of the segments that is an inline tag has its end. -/
def AllClosed (l : List String) : Prop := ∀ s ∈ l, Opens s.toList → Closed s.toList

theorem allClosed_map {l : List (List Char)} (h : ∀ s ∈ l, Opens s → Closed s) :
    AllClosed (l.map String.ofList) := by
  intro s mem opens
  obtain ⟨t, inside, rfl⟩ := List.mem_map.mp mem
  rw [String.toList_ofList] at opens ⊢
  exact h t inside opens

/-- The segments of a tag are those of its content, or of what comes behind the first word. -/
theorem exists_segments_ofSection (name content : List Char) :
    ∃ part, part <:+ content ∧
      (Tag.ofSection name content).segments = (segments part).map String.ofList := by
  unfold Tag.ofSection
  split
  · exact ⟨afterFirstWord content, (trimStart_suffix _).trans (List.dropWhile_suffix _), rfl⟩
  · exact ⟨content, List.suffix_rfl, rfl⟩

/-- The first word, the name of a parameter, may open braces; then there are more behind it. -/
theorem allClosed_tag {k : Cursor} {b : Block} {after : List Char}
    (zero : (k.past b.content after).depth = 0) : AllClosed b.tag.segments := by
  obtain ⟨z, z', _, blank, padded⟩ := exists_padding b.content
  obtain ⟨part, ⟨front, split⟩, cut⟩ := exists_segments_ofSection b.name (trim b.content)
  have content : b.content = (z ++ front) ++ (part ++ z') := by
    rw [padded, ← split]
    simp only [List.append_assoc]
  rw [content] at zero
  rw [Block.tag, cut]
  exact allClosed_map (closed_of_depth_past blank zero)

theorem Cut.depth_past {k : Cursor} {head : List Char} {b : Block} {l : List Block}
    (cut : Cut k head (b :: l)) : (k.past head (joined (b :: l))).depth = 0 := by
  obtain ⟨_, begins, _⟩ := cut
  obtain ⟨⟨_, depth, _⟩, _⟩ := startAt_eq_some_iff.mp begins
  exact depth

/-- Every block but the last has a tag behind it. -/
theorem Cut.allClosed {k : Cursor} {head : List Char} {l : List Block} (cut : Cut k head l) :
    ∀ b ∈ l.dropLast, AllClosed b.tag.segments := by
  induction l generalizing k head with
  | nil => simp
  | cons b l ih =>
    cases l with
    | nil => simp
    | cons b' l =>
      rw [List.dropLast_cons_of_ne_nil (by simp), List.forall_mem_cons]
      exact ⟨allClosed_tag cut.2.2.depth_past, ih cut.2.2⟩

/-- In a comment with tags the body has no inline tag without an end, and of the tags only the last
may have one. -/
theorem allClosed_of_parse? {raw : String} (h : isDocumentation raw = true) :
    ∃ c, parse? raw = some c ∧ (c.tags ≠ [] → AllClosed c.body) ∧
      ∀ t ∈ c.tags.dropLast, AllClosed t.segments := by
  refine ⟨ofText (undecorate raw.toList), by simp [parse?, h], ?_⟩
  obtain ⟨head, l, text, cut⟩ := exists_cut {} (undecorate raw.toList)
  rw [text, ofText_of_cut cut]
  constructor
  · intro tagged
    obtain ⟨b, l, rfl⟩ := List.exists_cons_of_ne_nil (l := l) (by simpa using tagged)
    obtain ⟨z, z', _, blank, padded⟩ := exists_padding head
    have zero := cut.depth_past
    rw [padded, List.append_assoc] at zero
    exact allClosed_map (closed_of_depth_past blank zero)
  · intro t mem
    rw [← List.map_dropLast] at mem
    obtain ⟨b, inside, rfl⟩ := List.mem_map.mp mem
    exact cut.allClosed b inside

/-- A parameter whose name opens an inline tag, and a last tag that is left open. -/
theorem allClosed_of_parse?_braced :
    isDocumentation "/** \x7b@a \x7bb\x7d\x7d @param \x7b@c x \x7b@d\x7d \x7d @see \x7b@e */" = true ∧
      ∃ c, parse? "/** \x7b@a \x7bb\x7d\x7d @param \x7b@c x \x7b@d\x7d \x7d @see \x7b@e */" = some c ∧
        (c.tags ≠ [] → AllClosed c.body) ∧ ∀ t ∈ c.tags.dropLast, AllClosed t.segments :=
  ⟨by decide, allClosed_of_parse? (by decide)⟩

end ApiDocs.Comment
