import ApiDocs.Comment.Parse
import ApiDocs.Proofs.Comment.TagStarts

/-! A comment holds the whole wording of its text: written out again, body first and then each tag,
it has the same characters in the same order, blanks apart. -/

namespace ApiDocs

open Text

/-- The at sign, the kind, the name if there is one, and the segments. -/
def Tag.written (t : Tag) : List Char :=
  '@' :: (t.kind.toList ++ ((t.name.map String.toList).getD [] ++
    (t.segments.map String.toList).flatten))

namespace Comment

def written (c : Comment) : List Char :=
  (c.body.map String.toList).flatten ++ c.tags.flatMap Tag.written

theorem flatten_toList_segments (text : List Char) :
    (((segments text).map String.ofList).map String.toList).flatten = text := by
  have inverse : String.toList ∘ String.ofList = id := funext fun _ => String.toList_ofList
  rw [List.map_map, inverse, List.map_id, flatten_segments]

/-- The first word of a `param` tag and what comes after it make up its content. -/
theorem withoutBlanks_firstWord (content : List Char) :
    withoutBlanks (firstWord content ++ afterFirstWord content) = withoutBlanks content := by
  unfold firstWord afterFirstWord
  rw [withoutBlanks_append, withoutBlanks_trimStart, ← withoutBlanks_append,
    List.takeWhile_append_dropWhile]

theorem withoutBlanks_written_ofSection (name content : List Char) :
    withoutBlanks (Tag.ofSection name content).written =
      withoutBlanks ('@' :: (name ++ content)) := by
  unfold Tag.ofSection
  split
  · next param =>
    have parts : (Tag.written
        { kind := "param"
          name := some (String.ofList (firstWord content))
          segments := (segments (afterFirstWord content)).map String.ofList }) =
        ('@' :: name) ++ (firstWord content ++ afterFirstWord content) := by
      rw [Tag.written, flatten_toList_segments, param]
      simp
    rw [parts, withoutBlanks_append, withoutBlanks_firstWord, ← withoutBlanks_append]
    rfl
  · rw [Tag.written, flatten_toList_segments]
    simp

/-! ## The sections of a text -/

/-- The text from a tag on is its sign and name, its section, and the text from the next tag on. -/
theorem drop_offset {text : List Char} {s : TagStart} (h : StandsAt text s) {stop : Nat}
    (le : s.offset + 1 + s.name.length ≤ stop) :
    text.drop s.offset =
      ('@' :: s.name) ++ (slice text (s.offset + 1 + s.name.length) stop ++ text.drop stop) := by
  obtain ⟨before, after, split, offset, name⟩ := h
  obtain ⟨tail, rfl⟩ := tagName?_isPrefix name
  have here : text.drop s.offset = '@' :: s.name ++ tail := by
    rw [split, offset, List.drop_left]
    rfl
  have next : text.drop (s.offset + 1 + s.name.length) = tail := by
    rw [Nat.add_assoc, ← List.drop_drop, here, Nat.add_comm 1, List.drop_append_of_le_length
      (by simp), ← List.length_cons, List.drop_length, List.nil_append]
  have rest : text.drop stop = tail.drop (stop - (s.offset + 1 + s.name.length)) := by
    rw [← next, List.drop_drop]
    congr 1
    omega
  rw [here, rest, slice, List.drop_take, next, List.take_append_drop]

theorem withoutBlanks_sections {text : List Char} {starts : List TagStart}
    (stands : ∀ s ∈ starts, StandsAt text s)
    (ordered : starts.Pairwise fun s t => s.offset < t.offset) :
    withoutBlanks ((sections text starts).flatMap fun s => '@' :: (s.1 ++ s.2)) =
      withoutBlanks (text.drop (stop text starts)) := by
  induction starts with
  | nil => simp [sections, stop]
  | cons s rest ih =>
    have here := stands s List.mem_cons_self
    have reach : s.offset + 1 + s.name.length ≤ stop text rest := by
      cases rest with
      | nil =>
        obtain ⟨before, after, split, offset, name⟩ := here
        have le := (tagName?_isPrefix name).length_le
        have length := congrArg List.length split
        simp only [List.length_append, List.length_cons] at length
        simp only [stop, List.head?_nil, Option.map_none, Option.getD_none]
        omega
      | cons t rest =>
        exact name_le_of_lt here (stands t (by simp))
          (List.rel_of_pairwise_cons ordered List.mem_cons_self)
    have tail := ih (fun t ht => stands t (List.mem_cons_of_mem s ht))
      (List.Pairwise.of_cons ordered)
    rw [sections, List.flatMap_cons, withoutBlanks_append, tail]
    have first : stop text (s :: rest) = s.offset := rfl
    rw [first, drop_offset here reach, ← List.cons_append, withoutBlanks_append, withoutBlanks_trim,
      List.append_assoc, ← withoutBlanks_append, ← withoutBlanks_append]

theorem withoutBlanks_written_tags (l : List (List Char × List Char)) :
    withoutBlanks ((l.map fun s => Tag.ofSection s.1 s.2).flatMap Tag.written) =
      withoutBlanks (l.flatMap fun s => '@' :: (s.1 ++ s.2)) := by
  induction l with
  | nil => rfl
  | cons s rest ih =>
    rw [List.map_cons, List.flatMap_cons, List.flatMap_cons, withoutBlanks_append,
      withoutBlanks_append, withoutBlanks_written_ofSection, ih]

theorem withoutBlanks_written_ofText (text : List Char) :
    withoutBlanks (ofText text).written = withoutBlanks text := by
  have body : withoutBlanks (bodyText text (tagStarts text)) =
      withoutBlanks (text.take (stop text (tagStarts text))) := withoutBlanks_trim _
  have tags : withoutBlanks ((sections text (tagStarts text)).flatMap fun s => '@' :: (s.1 ++ s.2)) =
      withoutBlanks (text.drop (stop text (tagStarts text))) :=
    withoutBlanks_sections (fun _ => standsAt_of_mem_tagStarts) (pairwise_tagStarts text)
  simp only [ofText, written]
  rw [flatten_toList_segments, withoutBlanks_append, body, withoutBlanks_written_tags, tags,
    ← withoutBlanks_append, List.take_append_drop]

/-- Reading a documentation comment loses nothing, repeats nothing and moves nothing. -/
theorem withoutBlanks_written {raw : String} (h : isDocumentation raw = true) :
    ∃ c, parse? raw = some c ∧
      withoutBlanks c.written = withoutBlanks (stripDecoration raw).toList := by
  refine ⟨ofText (undecorate raw.toList), by simp [parse?, h], ?_⟩
  rw [withoutBlanks_written_ofText, stripDecoration, String.toList_ofList]

theorem withoutBlanks_written_mixed :
    isDocumentation "/** a \x7b@b @c\x7d @param\n * @return\x7b@d e @see f.g- */" = true ∧
      ∃ c, parse? "/** a \x7b@b @c\x7d @param\n * @return\x7b@d e @see f.g- */" = some c ∧
        withoutBlanks c.written = withoutBlanks
          (stripDecoration "/** a \x7b@b @c\x7d @param\n * @return\x7b@d e @see f.g- */").toList :=
  ⟨by decide, withoutBlanks_written (by decide)⟩

end Comment

end ApiDocs
