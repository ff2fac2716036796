import ApiDocs.Proofs.Comment.Inline

/-! Which block tags a text has, said of each position by itself: an at sign that is not inside an
inline tag, with nothing or a blank before it and a tag name behind it, and which either begins its
line or has a well-known name. -/

namespace ApiDocs.Comment

open Text

/-! ## Tag names -/

def IsTagName : List Char → Prop
  | [] => False
  | c :: r => c.isAlpha = true ∧ ∀ d ∈ r, isTagNameChar d = true

/-- The longest tag name that the text begins with. -/
structure LongestTagName (text name : List Char) : Prop where
  front : name <+: text
  isName : IsTagName name
  longest : ∀ other, other <+: text → IsTagName other → other.length ≤ name.length

theorem longestTagName_of_tagName? {text name : List Char} (h : tagName? text = some name) :
    LongestTagName text name := by
  obtain ⟨c, r, rfl, first, rfl⟩ := tagName?_eq_some.mp h
  refine ⟨tagName?_isPrefix h, ⟨first, fun d hd => List.mem_takeWhile_imp hd⟩, ?_⟩
  intro other front isName
  cases other with
  | nil => exact isName.elim
  | cons d other =>
    obtain ⟨_, t, rfl⟩ := List.cons_prefix_cons.mp front
    rw [List.takeWhile_append_of_pos isName.2, List.length_cons, List.length_cons,
      List.length_append]
    omega

theorem tagName?_eq_some_iff {text name : List Char} :
    tagName? text = some name ↔ LongestTagName text name := by
  refine ⟨longestTagName_of_tagName?, fun h => ?_⟩
  obtain ⟨found, hf⟩ : ∃ found, tagName? text = some found := by
    cases name with
    | nil => exact h.isName.elim
    | cons c name =>
      obtain ⟨rest, rfl⟩ := h.front
      exact ⟨_, tagName?_eq_some.mpr ⟨c, name ++ rest, rfl, h.isName.1, rfl⟩⟩
  have other := longestTagName_of_tagName? hf
  have same : name.length = found.length :=
    Nat.le_antisymm (other.longest name h.front h.isName) (h.longest found other.front other.isName)
  rw [hf, (List.prefix_of_prefix_length_le h.front other.front same.le).eq_of_length same]

/-! ## Positions -/

/-- A block tag stands at the offset. -/
structure IsTagAt (text : List Char) (s : TagStart) : Prop where
  sign : text[s.offset]? = some '@'
  apart : s.offset = 0 ∨ ∃ c, text[s.offset - 1]? = some c ∧ isBlank c = true
  outside : ∀ segment, segmentAt (segments text) s.offset = some segment → ¬ Opens segment
  name : LongestTagName (text.drop (s.offset + 1)) s.name
  place : allBlank (Cursor.line (text.take s.offset)) = true ∨ String.ofList s.name ∈ knownTags

theorem apart_iff (before after : List Char) :
    (before.length = 0 ∨
        ∃ c, (before ++ after)[before.length - 1]? = some c ∧ isBlank c = true) ↔
      (Cursor.past {} before after).afterBlank = true := by
  rw [Cursor.afterBlank_past]
  cases before using List.reverseRecOn with
  | nil => simp
  | append_singleton before c _ => simp

theorem isTagAt_iff {before after : List Char} {s : TagStart} (here : s.offset = before.length) :
    IsTagAt (before ++ '@' :: after) s ↔
      startAt (Cursor.past {} before ('@' :: after)) '@' after = some s := by
  obtain ⟨segment, covers, inside⟩ := segmentAt_segments before after
  have behind : (before ++ '@' :: after).drop (s.offset + 1) = after := by
    rw [here, ← List.drop_drop, List.drop_left]
    rfl
  have front : (before ++ '@' :: after).take s.offset = before := by rw [here, List.take_left]
  rw [startAt_eq_some_iff, Cursor.offset_past, Cursor.lineBlank_past, ← apart_iff,
    tagName?_eq_some_iff, Bool.or_eq_true]
  constructor
  · intro h
    have depth : (Cursor.past {} before ('@' :: after)).depth = 0 := by
      have notInside := h.outside segment (by rw [here]; exact covers)
      rw [inside] at notInside
      exact not_not.mp notInside
    refine ⟨⟨rfl, depth, ?_⟩, by simpa using here, ?_, ?_⟩
    · simpa [here] using h.apart
    · simpa [behind] using h.name
    · simpa [front, isKnownTag] using h.place
  · rintro ⟨⟨_, depth, apart⟩, _, name, place⟩
    refine ⟨by simp [here], by simpa [here] using apart, ?_, by simpa [behind] using name, ?_⟩
    · intro other covers' opens
      rw [here, covers] at covers'
      cases covers'
      exact inside.mp opens depth
    · simpa [front, isKnownTag] using place

theorem mem_tagStarts_iff {text : List Char} {s : TagStart} :
    s ∈ tagStarts text ↔ IsTagAt text s := by
  constructor
  · intro h
    obtain ⟨before, c, after, rfl, start⟩ := mem_startsFrom_iff.mp h
    obtain ⟨⟨rfl, _⟩, offset, _⟩ := startAt_eq_some_iff.mp start
    rw [Cursor.offset_past] at offset
    exact (isTagAt_iff (by simpa using offset)).mpr start
  · intro h
    obtain ⟨inText, sign⟩ := List.getElem?_eq_some_iff.mp h.sign
    have split : text = text.take s.offset ++ '@' :: text.drop (s.offset + 1) := by
      rw [← sign, List.getElem_cons_drop, List.take_append_drop]
    have length : s.offset = (text.take s.offset).length := by
      rw [List.length_take]
      omega
    rw [split] at h
    exact mem_startsFrom_iff.mpr ⟨_, _, _, split, (isTagAt_iff length).mp h⟩

/-- The tags of a text in order, each just where a tag stands by its surroundings; no name reaches
the next tag. What counts as inside of an inline tag is the same for the running count of braces and
for the search from one opening brace to its closing brace. -/
theorem tagStarts_exact (text : List Char) :
    (tagStarts text).Pairwise (fun s t => s.offset < t.offset) ∧
      (∀ s, s ∈ tagStarts text ↔ IsTagAt text s) ∧
      (tagStarts text).Pairwise (fun s t => s.offset + 1 + s.name.length ≤ t.offset) ∧
      segments text = withoutEmpty (searched text) := by
  refine ⟨pairwise_tagStarts text, fun _ => mem_tagStarts_iff, ?_, segments_eq_searched text⟩
  refine (pairwise_tagStarts text).imp_of_mem fun hs ht lt => ?_
  exact name_le_of_lt (standsAt_of_mem_tagStarts hs) (standsAt_of_mem_tagStarts ht) lt

end ApiDocs.Comment
