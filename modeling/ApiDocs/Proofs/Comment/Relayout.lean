import ApiDocs.Proofs.Comment.Blocks
import ApiDocs.Proofs.Comment.Spacing

/-! A comment that was read is read again from its plain layout. Tags from the middle of a line come
to stand at the start of one; what else looked like a tag, and was none, still is none. -/

namespace ApiDocs.Comment

open Text Cursor

/-! ## Tag names -/

/-- The name is read up to the first character that no name has. -/
theorem tagName?_append_iff {name rest : List Char} :
    tagName? (name ++ rest) = some name ↔
      IsTagName name ∧ ∀ c, rest.head? = some c → isTagNameChar c = false := by
  cases name with
  | nil =>
    constructor
    · intro h
      obtain ⟨_, _, _, _, empty⟩ := tagName?_eq_some.mp h
      cases empty
    · exact fun h => h.1.elim
  | cons c r =>
    have munch : (r ++ rest).takeWhile isTagNameChar = r ↔
        (∀ d ∈ r, isTagNameChar d = true) ∧
          ∀ d, rest.head? = some d → isTagNameChar d = false := by
      constructor
      · intro h
        have all : ∀ d ∈ r, isTagNameChar d = true := fun d mem => by
          rw [← h] at mem
          exact List.mem_takeWhile_imp mem
        rw [List.takeWhile_append_of_pos all] at h
        exact ⟨all, takeWhile_eq_nil_iff_head?.mp (by simpa using h)⟩
      · rintro ⟨all, stop⟩
        rw [List.takeWhile_append_of_pos all, takeWhile_eq_nil_iff_head?.mpr stop, List.append_nil]
    rw [List.cons_append, tagName?, IsTagName, and_assoc, ← munch]
    by_cases first : c.isAlpha = true <;> simp [first]

theorem nameChar_of_mem {name : List Char} (h : IsTagName name) {c : Char} (mem : c ∈ name) :
    c.isAlpha = true ∨ isTagNameChar c = true := by
  cases name with
  | nil => cases mem
  | cons d name =>
    rcases List.mem_cons.mp mem with rfl | mem
    · exact .inl h.1
    · exact .inr (h.2 c mem)

theorem plain_of_mem {name : List Char} (h : IsTagName name) {c : Char} (mem : c ∈ name) :
    c ≠ '{' ∧ c ≠ '}' := by
  have found := nameChar_of_mem h mem
  constructor <;>
  · rintro rfl
    revert found
    decide

theorem solid_of_mem {name : List Char} (h : IsTagName name) {c : Char} (mem : c ∈ name) :
    isBlank c = false := by
  rw [← Bool.not_eq_true]
  intro blank
  have other := not_nameChar_of_isBlank blank
  simpa [other] using nameChar_of_mem h mem

/-! ## One line for each tag -/

/-- At the start of a line, as deep as another cursor. -/
structure Restarts (k' k : Cursor) : Prop where
  depth : k'.depth = k.depth
  afterBlank : k'.afterBlank = true
  lineBlank : k'.lineBlank = true

theorem restarts_newline (k : Cursor) (after : List Char) : Restarts (k.next '\n' after) k where
  depth := k.depth_next_of_plain (by decide) after
  afterBlank := by simp [Cursor.next, isBlank]
  lineBlank := by simp [Cursor.next]

/-- Without a tag in the second stretch there is none in the first, and behind that a line begins.
Behind the second the text ends or a tag may begin. -/
def Replaces (k' : Cursor) (x' : List Char) (k : Cursor) (x : List Char) : Prop :=
  ∀ u u', Silent k x u → (u = [] ∨ (k.past x u).afterBlank = true) →
    Silent k' x' u' ∧ Restarts (k'.past x' u') (k.past x u)

/-- What the padding of a text and the text before its line do does not matter, if the cursor is no
worse behind. -/
theorem replaces_padded {k k' : Cursor} {z t z' g t' : List Char} (tight : Tight t)
    (blank : allBlank z' = true) (respaced : Respaced t t') (noSign : '@' ∉ g)
    (quieter : ∀ v v', Quieter (k'.past g v') (k.past z v)) :
    Replaces k' (g ++ (t' ++ ['\n'])) k (z ++ (t ++ z')) := by
  intro u u' quiet ends
  have apart : t ≠ [] → Separated (z' ++ u) := by
    intro ne
    by_cases none : z' = []
    · subst none
      rw [List.append_nil, afterBlank_past, List.getLast?_append_of_ne_nil z ne] at ends
      rcases ends with rfl | afterBlank
      · simp [Separated]
      · have solid := tight.finish _ (List.getLast?_eq_getLast_of_ne_nil ne)
        simp [List.getLast?_eq_getLast_of_ne_nil ne, solid] at afterBlank
    · exact separated_append blank none u
  rw [silent_append, silent_append] at quiet
  obtain ⟨text, behind⟩ := respaced.silent quiet.2.1 (quieter _ (t' ++ ['\n'] ++ u')) apart fun _ =>
    separated_append (z := ['\n']) rfl (by simp) u'
  refine ⟨?_, ?_⟩
  · rw [silent_append, silent_append]
    exact ⟨silent_of_not_mem noSign _ _, text, silent_of_not_mem (by simp) _ _⟩
  · rw [past_append, past_append, past_append, past_append]
    refine ⟨?_, (restarts_newline _ u').afterBlank, (restarts_newline _ u').lineBlank⟩
    rw [depth_past_blanks _ blank, ← behind.depth]
    exact (restarts_newline _ u').depth

/-- The block of a tag in its layout. -/
def Block.laidOut (b : Block) : Block where
  name := b.name
  content := b.tag.gap ++ (b.tag.rest ++ ['\n'])

theorem gap_cases (t : Tag) :
    (t.gap = [] ∧ ∀ c, t.rest.head? = some c → isTagNameChar c = false) ∨
      (t.gap = [' '] ∧ ∃ c, t.rest.head? = some c ∧ isTagNameChar c = true) := by
  unfold Tag.gap
  cases h : t.rest.head? with
  | none => simp
  | some c => by_cases name : isTagNameChar c = true <;> simp [name]

theorem kind_tag (b : Block) : b.tag.kind.toList = b.name := by
  unfold Block.tag Tag.ofSection
  split
  · next param => rw [param]
  · exact String.toList_ofList

theorem respaced_tag (b : Block) : Respaced (trim b.content) b.tag.rest :=
  respaced_rest b.name (tight_trim _)

/-- The name ends where it ended. -/
theorem name_laidOut {b : Block} {after : List Char} (after' : List Char)
    (h : tagName? (b.name ++ (b.content ++ after)) = some b.name) :
    tagName? (b.name ++ (b.laidOut.content ++ after')) = some b.name := by
  obtain ⟨isName, _⟩ := tagName?_append_iff.mp h
  refine tagName?_append_iff.mpr ⟨isName, fun c first => ?_⟩
  rw [Block.laidOut] at first
  rcases gap_cases b.tag with ⟨none, other⟩ | ⟨space, _⟩
  · rw [none, List.nil_append, List.append_assoc, List.head?_append] at first
    cases rest : b.tag.rest.head? with
    | none =>
      rw [rest] at first
      cases first
      decide
    | some d =>
      rw [rest] at first
      exact other c (rest.trans first)
  · rw [space] at first
    cases first
    decide

/-- The content of a tag holds no more tags than it did. -/
theorem replaces_content {k k' : Cursor} {b : Block} {after : List Char} (quieter : Quieter k' k)
    (h : tagName? (b.name ++ (b.content ++ after)) = some b.name) :
    Replaces k' b.laidOut.content k b.content := by
  obtain ⟨z, z', before, behind, split⟩ := exists_padding b.content
  rw [List.append_assoc] at split
  have tight := tight_trim b.content
  have padded : ∀ g, g = b.tag.gap → '@' ∉ g →
      (∀ v v', Quieter (k'.past g v') (k.past z v)) →
      Replaces k' b.laidOut.content k b.content := by
    rintro g rfl noSign quieter
    have line := replaces_padded tight behind (respaced_tag b) noSign quieter
    rwa [← split] at line
  rcases gap_cases b.tag with ⟨none, _⟩ | ⟨space, c, first, isName⟩
  · exact padded [] none.symm (by simp) fun v _ => quieter.past_blanks before v
  · -- a name character right behind the name would be a part of it
    have ne : z ≠ [] := by
      rintro rfl
      have here : (b.content ++ after).head? = some c := by
        rw [split, List.nil_append, List.append_assoc, List.head?_append,
          ← (respaced_tag b).head? tight, first]
        rfl
      simp [(tagName?_append_iff.mp h).2 c here] at isName
    exact padded [' '] space.symm (by simp) fun v v' => quieter.space before ne v v'

theorem cut_laidOut {k k' : Cursor} {head head' : List Char} {l : List Block}
    (cut : Cut k head l) (replaces : Replaces k' head' k head) :
    Cut k' head' (l.map Block.laidOut) := by
  induction l generalizing k k' head head' with
  | nil => exact (replaces [] [] cut (.inl rfl)).1
  | cons b l ih =>
    obtain ⟨quiet, begins, rest⟩ := cut
    obtain ⟨⟨_, depth, afterBlank⟩, _, name, _⟩ := startAt_eq_some_iff.mp begins
    obtain ⟨quiet', restarts⟩ :=
      replaces _ (joined ((b :: l).map Block.laidOut)) quiet (.inr afterBlank)
    refine ⟨quiet', startAt_eq_some_iff.mpr ?_, ih rest (replaces_content ?_ name)⟩
    · refine ⟨⟨rfl, restarts.depth.trans depth, restarts.afterBlank⟩, rfl, name_laidOut _ name, ?_⟩
      rw [Bool.or_eq_true]
      exact .inl restarts.lineBlank
    · exact (quieter_at restarts.depth _ _).past_plain
        (fun c => plain_of_mem (tagName?_append_iff.mp name).1) _ _

/-! ## The whole comment -/

theorem text_laidOut (b : Block) : b.laidOut.text = b.tag.laidOut ++ ['\n'] := by
  rw [Tag.laidOut, kind_tag]
  simp [Block.text, Block.laidOut]

/-- A line feed in front of each tag, or one at the end of each line. -/
theorem flatMap_laidOut (l : List Block) :
    ((l.map Block.tag).flatMap fun t => '\n' :: t.laidOut) ++ ['\n'] =
      '\n' :: joined (l.map Block.laidOut) := by
  induction l with
  | nil => rfl
  | cons b l ih =>
    have first : joined ((b :: l).map Block.laidOut) =
        b.laidOut.text ++ joined (l.map Block.laidOut) := rfl
    rw [List.map_cons, List.flatMap_cons, List.append_assoc, ih, first, text_laidOut]
    simp

theorem tag_laidOut (b : Block) : b.laidOut.tag = b.tag := by
  have tight : Tight b.tag.rest := (respaced_tag b).tight (tight_trim _)
  have blank : allBlank b.tag.gap = true := by
    rcases gap_cases b.tag with ⟨none, _⟩ | ⟨space, _⟩
    · rw [none]; rfl
    · rw [space]; rfl
  have content : trim b.laidOut.content = b.tag.rest := by
    rw [Block.laidOut, ← List.append_assoc]
    exact trim_padded tight blank rfl
  rw [Block.tag, content]
  exact ofSection_rest b.name (trim b.content)

theorem ofText_laidOut (text : List Char) :
    ofText ('\n' :: (ofText text).laidOut ++ ['\n']) = ofText text := by
  obtain ⟨head, l, rfl, cut⟩ := exists_cut {} text
  obtain ⟨z, z', before, behind, split⟩ := exists_padding head
  rw [List.append_assoc] at split
  -- in front of the body both cursors stand at the start of a line
  have fresh : ∀ v v', Quieter (past {} ['\n'] v') (past {} z v) := fun v v' =>
    ⟨by rw [depth_past_blanks _ before, depth_past_blanks _ rfl],
      fun _ => afterBlank_past_blanks before v (.inr rfl),
      fun _ => lineBlank_past_blanks before v rfl⟩
  have body := replaces_padded (tight_trim head) behind (.same _) (by simp) fresh
  rw [← split] at body
  have laidOut : '\n' :: (ofText (head ++ joined l)).laidOut ++ ['\n'] =
      ['\n'] ++ (trim head ++ ['\n']) ++ joined (l.map Block.laidOut) := by
    have tags := flatMap_laidOut l
    rw [ofText_of_cut cut, Comment.laidOut, flatten_toList_segments, List.cons_append,
      List.append_assoc, tags]
    simp
  have trimmed : trim (['\n'] ++ (trim head ++ ['\n'])) = trim head := by
    rw [← List.append_assoc]
    exact trim_padded (tight_trim head) rfl rfl
  have tags : (l.map Block.laidOut).map Block.tag = l.map Block.tag := by
    rw [List.map_map]
    exact List.map_congr_left fun b _ => tag_laidOut b
  rw [laidOut, ofText_of_cut (cut_laidOut cut body), ofText_of_cut cut, trimmed, tags]

/-! ## No blanks at the line ends -/

theorem Cut.isTagName {k : Cursor} {head : List Char} {l : List Block} (cut : Cut k head l) :
    ∀ b ∈ l, IsTagName b.name := by
  induction l generalizing k head with
  | nil => simp
  | cons b l ih =>
    obtain ⟨_, begins, rest⟩ := cut
    obtain ⟨_, _, name, _⟩ := startAt_eq_some_iff.mp begins
    exact List.forall_mem_cons.mpr ⟨(tagName?_append_iff.mp name).1, ih rest⟩

theorem flush_tag {b : Block} (name : IsTagName b.name) (h : Flush (trim b.content)) :
    Flush b.tag.laidOut := by
  have tight := tight_trim b.content
  have rest : Flush b.tag.rest := (respaced_tag b).flush h tight
  have solid : ∀ c ∈ '@' :: b.name, isBlank c = false :=
    List.forall_mem_cons.mpr ⟨solid_signs.1, fun c mem => solid_of_mem name mem⟩
  have behind : Flush (b.tag.gap ++ b.tag.rest) := by
    rcases gap_cases b.tag with ⟨none, _⟩ | ⟨space, c, first, _⟩
    · rwa [none]
    · rw [space]
      refine rest.cons_space ((respaced_tag b).tight tight).start ?_
      rintro empty
      simp [empty] at first
  rw [Tag.laidOut, kind_tag]
  exact behind.append_solid solid

theorem flush_laidOut {text : List Char} (h : Flush text) : Flush (ofText text).laidOut := by
  obtain ⟨head, l, rfl, cut⟩ := exists_cut {} text
  rw [ofText_of_cut cut, Comment.laidOut, flatten_toList_segments]
  have body : Flush (trim head) :=
    h.part ((infix_trim head).trans (List.prefix_append _ _).isInfix) (tight_trim head).finish
  refine body.append_lines fun t mem => ?_
  obtain ⟨b, inList, rfl⟩ := List.mem_map.mp mem
  refine flush_tag (cut.isTagName b inList) (h.part ?_ (tight_trim b.content).finish)
  exact (infix_trim b.content).trans
    ((infix_joined inList).trans (List.suffix_append head _).isInfix)

/-- A comment that was read, written in its plain layout, is read as the same comment. -/
theorem parse?_canonical {raw : String} (h : isDocumentation raw = true) :
    ∃ c, parse? raw = some c ∧ parse? c.canonical = some c := by
  refine ⟨ofText (undecorate raw.toList), by simp [parse?, h], ?_⟩
  have text := undecorate_decorate (flush_laidOut (flush_undecorate raw.toList))
  rw [parse?, if_pos (isDocumentation_canonical _), canonical, String.toList_ofList, text,
    ofText_laidOut]

/-- Tags in the middle of a line or glued to what follows, and an inline tag in the name of a
parameter. -/
def denseText : String :=
  "/**a @b @return@param y @param p\x7b@\n \t* q @see  c *d\x7d@e @since\n\n  @x \x7b@"

theorem parse?_canonical_dense :
    isDocumentation denseText = true ∧
      ∃ c, parse? denseText = some c ∧ parse? c.canonical = some c :=
  ⟨by decide, parse?_canonical (by decide)⟩

/-- The tag from the middle of the line gets its own, and what is glued to it stays so. -/
example : (parse? "/** a @return\x7b@b c\x7d * @see\n\n  d */").map canonical =
    some "/**\n * a\n * @return\x7b@b c\x7d *\n * @see d\n */" := by
  decide +kernel

end ApiDocs.Comment
