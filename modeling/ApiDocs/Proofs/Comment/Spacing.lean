import ApiDocs.Comment.Parse
import ApiDocs.Proofs.Comment.Layout
import ApiDocs.Proofs.Comment.Silence
import ApiDocs.Proofs.Comment.Wording

/-! What a tag keeps of its content: all of it, save that behind the name of a parameter one space
stands for the blanks. Read as the content of a tag it gives the same tag again. -/

namespace ApiDocs.Comment

open Text Cursor

/-- The same text, or the same but for one space in place of the blanks behind its first word. -/
inductive Respaced : List Char → List Char → Prop
  | same (t : List Char) : Respaced t t
  | spaced {w g d : List Char} (word : ∀ c ∈ w, isBlank c = false) (blank : allBlank g = true)
      (gap : g ≠ []) (start : SolidStart d) (more : d ≠ []) :
      Respaced (w ++ (g ++ d)) (w ++ ' ' :: d)

/-- In front of a blank in a text without blanks at its ends there is a word. -/
theorem word_ne_nil {w g d : List Char} (blank : allBlank g = true) (gap : g ≠ [])
    (tight : Tight (w ++ (g ++ d))) : w ≠ [] := by
  rintro rfl
  obtain ⟨c, g, rfl⟩ := List.exists_cons_of_ne_nil gap
  have solid : isBlank c = false := tight.start c rfl
  simp [allBlank_iff.mp blank c List.mem_cons_self] at solid

namespace Respaced

variable {t t' : List Char}

theorem head? (h : Respaced t t') (tight : Tight t) : t'.head? = t.head? := by
  cases h with
  | same => rfl
  | spaced word blank gap start more =>
    have ne := word_ne_nil blank gap tight
    rw [List.head?_append_of_ne_nil _ ne, List.head?_append_of_ne_nil _ ne]

theorem finish (h : Respaced t t') (tight : Tight t) : SolidEnd t' := by
  cases h with
  | same => exact tight.finish
  | @spaced w g d word blank gap start more =>
    have suffix : d <:+ w ++ (g ++ d) := (List.suffix_append g d).trans (List.suffix_append w _)
    have last : SolidEnd d := tight.finish.suffix suffix
    exact (last.append_left more [' ']).append_left (by simp) w

theorem tight (h : Respaced t t') (tight : Tight t) : Tight t' :=
  ⟨fun c first => tight.start c (h.head? tight ▸ first), h.finish tight⟩

theorem flush (h : Respaced t t') (flush : Flush t) (tight : Tight t) : Flush t' := by
  cases h with
  | same => exact flush
  | @spaced w g d word blank gap start more =>
    have suffix : d <:+ w ++ (g ++ d) := (List.suffix_append g d).trans (List.suffix_append w _)
    have rest : Flush d := flush.part suffix.isInfix (tight.finish.suffix suffix)
    exact (rest.cons_space start more).append_solid word

/-- A respaced text is as silent as the text. -/
theorem silent (h : Respaced t t') {k k' : Cursor} {u u' : List Char} (quiet : Silent k t u)
    (quieter : Quieter k' k) (apart : t ≠ [] → Separated u) (apart' : t ≠ [] → Separated u') :
    Silent k' t' u' ∧ Quieter (k'.past t' u') (k.past t u) := by
  cases h with
  | same => exact quiet.quieter quieter apart apart'
  | @spaced w g d word blank gap start more =>
    have ne : w ++ (g ++ d) ≠ [] := by simp [gap]
    rw [silent_append, silent_append] at quiet
    obtain ⟨first, _, rest⟩ := quiet
    have before : Separated (g ++ d ++ u) := by
      rw [List.append_assoc]
      exact separated_append blank gap _
    have before' : Separated (' ' :: d ++ u') := separated_append (z := [' ']) rfl (by simp) _
    obtain ⟨first', here⟩ := first.quieter quieter (fun _ => before) (fun _ => before')
    have behind := here.space blank gap (d ++ u) (d ++ u')
    obtain ⟨rest', there⟩ := rest.quieter behind (fun _ => apart ne) (fun _ => apart' ne)
    rw [silent_append, past_append, past_append, past_append]
    exact ⟨⟨first', by simp [startAt], rest'⟩, there⟩

end Respaced

/-! ## The content of a tag -/

theorem segments_eq_nil_iff {d : List Char} : segments d = [] ↔ d = [] := by
  constructor
  · intro h
    rw [← flatten_segments d, h]
    rfl
  · rintro rfl
    rfl

/-- The rest of a `param` tag. -/
theorem rest_ofSection_param (t : List Char) :
    (Tag.ofSection "param".toList t).rest =
      firstWord t ++ if afterFirstWord t = [] then [] else ' ' :: afterFirstWord t := by
  simp only [Tag.ofSection, ↓reduceIte, Tag.rest, flatten_toList_segments, String.toList_ofList,
    List.isEmpty_iff, List.map_eq_nil_iff, segments_eq_nil_iff]

theorem rest_ofSection_of_ne {name : List Char} (h : name ≠ "param".toList) (t : List Char) :
    (Tag.ofSection name t).rest = t := by
  simp only [Tag.ofSection, h, ↓reduceIte, Tag.rest, flatten_toList_segments]

theorem solid_firstWord (t : List Char) : ∀ c ∈ firstWord t, isBlank c = false := by
  intro c mem
  simpa using List.mem_takeWhile_imp mem

/-- Between the first word and the others there are blanks. -/
theorem exists_gap (t : List Char) :
    ∃ g, allBlank g = true ∧ t = firstWord t ++ (g ++ afterFirstWord t) ∧
      (g = [] → afterFirstWord t = []) := by
  have behind : (t.dropWhile fun c => !isBlank c).takeWhile isBlank ++ afterFirstWord t =
      t.dropWhile fun c => !isBlank c := List.takeWhile_append_dropWhile
  refine ⟨(t.dropWhile fun c => !isBlank c).takeWhile isBlank, ?_, ?_, ?_⟩
  · exact allBlank_iff.mpr fun c mem => List.mem_takeWhile_imp mem
  · rw [behind, firstWord, List.takeWhile_append_dropWhile]
  · intro none
    rw [none, List.nil_append] at behind
    -- a character there would be a blank behind the word, and no blank before the others
    have blank := List.head?_dropWhile_not (fun c => !isBlank c) t
    have solid := solidStart_trimStart (t.dropWhile fun c => !isBlank c)
    change SolidStart (afterFirstWord t) at solid
    rw [← behind] at blank
    cases first : (afterFirstWord t).head? with
    | none => exact List.head?_eq_none_iff.mp first
    | some c => simp [first, solid c first] at blank

theorem firstWord_append {w x : List Char} (word : ∀ c ∈ w, isBlank c = false)
    (apart : Separated x) : firstWord (w ++ x) = w ∧ afterFirstWord (w ++ x) = trimStart x := by
  have solid : ∀ c ∈ w, (!isBlank c) = true := fun c mem => by simp [word c mem]
  have none : (x.takeWhile fun c => !isBlank c) = [] :=
    takeWhile_eq_nil_iff_head?.mpr fun c first => by simp [apart c first]
  have all : (x.dropWhile fun c => !isBlank c) = x := by
    simpa [none] using List.takeWhile_append_dropWhile (p := fun c => !isBlank c) (l := x)
  constructor
  · rw [firstWord, List.takeWhile_append_of_pos solid, none, List.append_nil]
  · rw [afterFirstWord, List.dropWhile_append_of_pos solid, all]

theorem respaced_rest (name : List Char) {t : List Char} (tight : Tight t) :
    Respaced t (Tag.ofSection name t).rest := by
  by_cases param : name = "param".toList
  · obtain ⟨g, blank, split, gap⟩ := exists_gap t
    rw [param, rest_ofSection_param]
    by_cases single : afterFirstWord t = []
    · rw [single, List.append_nil] at split
      have none : g = [] := by
        have finish : SolidEnd g := tight.finish.suffix ⟨firstWord t, split.symm⟩
        rw [← finish.trimEnd]
        exact (trimEnd_eq_nil_iff g).mpr blank
      rw [none, List.append_nil] at split
      rw [if_pos single, List.append_nil, ← split]
      exact .same t
    · rw [if_neg single]
      nth_rewrite 1 [split]
      exact .spaced (solid_firstWord t) blank (mt gap single) (solidStart_trimStart _) single
  · rw [rest_ofSection_of_ne param]
    exact .same t

/-- What is kept of the content of a tag is content of the same tag. -/
theorem ofSection_rest (name t : List Char) :
    Tag.ofSection name (Tag.ofSection name t).rest = Tag.ofSection name t := by
  by_cases param : name = "param".toList
  · have apart : Separated (if afterFirstWord t = [] then [] else ' ' :: afterFirstWord t) := by
      split
      · simp [Separated]
      · exact separated_append (z := [' ']) rfl (by simp) _
    have others : trimStart (if afterFirstWord t = [] then [] else ' ' :: afterFirstWord t) =
        afterFirstWord t := by
      have start : SolidStart (afterFirstWord t) := solidStart_trimStart _
      split
      · next none => rw [none]; rfl
      · exact (trimStart_append_of_allBlank (z := [' ']) rfl _).trans start.trimStart
    obtain ⟨first, rest⟩ := firstWord_append (solid_firstWord t) apart
    rw [param, rest_ofSection_param, Tag.ofSection, if_pos rfl, first, rest, others, Tag.ofSection,
      if_pos rfl]
  · rw [rest_ofSection_of_ne param]

end ApiDocs.Comment
