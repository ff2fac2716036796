import ApiDocs.Comment.Descriptions
import ApiDocs.Comment.Parse
import ApiDocs.Proofs.Comment.Spacing

/-! The descriptions in a comment that was read from a text. Its body and the contents of its tags
were trimmed before they were cut into segments, so joined with any separator they have no blank
at their ends. -/

namespace ApiDocs

namespace Text

/-- No blank at either end. -/
def IsTrimmed (s : String) : Prop := trimmed s = s

theorem Tight.trim {s : List Char} (h : Tight s) : trim s = s := by
  rw [Text.trim, h.start.trimStart, h.finish.trimEnd]

theorem isTrimmed_of_tight {s : String} (h : Tight s.toList) : IsTrimmed s := by
  rw [IsTrimmed, trimmed, h.trim, String.ofList_toList]

theorem isTrimmed_trimmed (s : String) : IsTrimmed (trimmed s) :=
  isTrimmed_of_tight (toList_trimmed s ▸ tight_trim s.toList)

theorem trim_eq_nil_iff {s : List Char} : trim s = [] ↔ allBlank s = true := by
  constructor
  · intro none
    obtain ⟨z, z', before, after, split⟩ := exists_padding s
    rw [none, List.append_nil] at split
    rw [split, allBlank, List.all_append, Bool.and_eq_true]
    exact ⟨before, after⟩
  · intro blank
    rw [trim, trimStart, List.dropWhile_eq_nil_iff.mpr (allBlank_iff.mp blank), trimEnd]

/-! ## Joining -/

theorem prefix_intercalate (sep s : List Char) (l : List (List Char)) :
    s <+: sep.intercalate (s :: l) := by
  cases l with
  | nil => simp
  | cons t l =>
    rw [List.intercalate_cons_cons, List.append_assoc]
    exact List.prefix_append _ _

theorem suffix_intercalate (sep s : List Char) (l : List (List Char)) :
    s <:+ sep.intercalate (l ++ [s]) := by
  induction l with
  | nil => simp
  | cons t l ih =>
    have ne : l ++ [s] ≠ [] := by simp
    obtain ⟨first, rest, split⟩ := List.exists_cons_of_ne_nil ne
    rw [List.cons_append, split, List.intercalate_cons_cons, ← split]
    exact ih.trans (List.suffix_append _ _)

/-- What stands between pieces of a text does not show at its ends. -/
theorem tight_intercalate (sep : List Char) {l : List (List Char)} (filled : ∀ s ∈ l, s ≠ [])
    (tight : Tight l.flatten) : Tight (sep.intercalate l) := by
  constructor
  · cases l with
    | nil => exact tight.start
    | cons s l =>
      have ne := filled s List.mem_cons_self
      obtain ⟨u, joined⟩ := prefix_intercalate sep s l
      have start := tight.start
      rw [SolidStart, List.flatten_cons, List.head?_append_of_ne_nil _ ne] at start
      rwa [SolidStart, ← joined, List.head?_append_of_ne_nil _ ne]
  · rcases List.eq_nil_or_concat l with rfl | ⟨l, s, rfl⟩
    · exact tight.finish
    · rw [List.concat_eq_append] at filled tight ⊢
      have ne := filled s (List.mem_append_right l List.mem_cons_self)
      obtain ⟨u, joined⟩ := suffix_intercalate sep s l
      have last : SolidEnd s := tight.finish.suffix (by simp)
      rw [← joined]
      exact last.append_left ne u

end Text

open Text

/-- The segments with one space between neighbours. -/
def Tag.description (t : Tag) : String := " ".intercalate t.segments

namespace Comment

/-! ## Segments -/

theorem ne_nil_of_mem_segments {text s : List Char} (h : s ∈ segments text) : s ≠ [] := by
  rintro rfl
  simp [segments] at h

/-- The segments are those of a text without blanks at its ends. -/
def CutFromTrimmed (l : List String) : Prop :=
  ∃ s, Tight s ∧ l = (segments s).map String.ofList

theorem toList_join (sep : String) (text : List Char) :
    (sep.intercalate ((segments text).map String.ofList)).toList =
      sep.toList.intercalate (segments text) := by
  simp [String.toList_intercalate, Function.comp_def]

theorem CutFromTrimmed.isTrimmed {l : List String} (h : CutFromTrimmed l) (sep : String) :
    IsTrimmed (sep.intercalate l) := by
  obtain ⟨s, tight, rfl⟩ := h
  refine isTrimmed_of_tight ?_
  rw [toList_join]
  exact tight_intercalate _ (fun _ => ne_nil_of_mem_segments) (by rwa [flatten_segments])

theorem join_eq_empty_iff (sep : String) (text : List Char) :
    sep.intercalate ((segments text).map String.ofList) = "" ↔ text = [] := by
  rw [← String.toList_inj, toList_join, ← segments_eq_nil_iff]
  cases cut : segments text with
  | nil => simp
  | cons s l =>
    have ne : s ≠ [] := ne_nil_of_mem_segments (cut ▸ List.mem_cons_self)
    obtain ⟨u, joined⟩ := prefix_intercalate sep.toList s l
    rw [← joined]
    simp [ne]

/-! ## A comment from its text -/

theorem exists_of_parse? {raw : String} {c : Comment} (h : parse? raw = some c) :
    isDocumentation raw = true ∧ c = ofText (undecorate raw.toList) := by
  unfold parse? at h
  split at h
  · next documents => exact ⟨documents, (Option.some.inj h).symm⟩
  · cases h

theorem tight_of_mem_sections {text name content : List Char} {starts : List TagStart}
    (h : (name, content) ∈ sections text starts) : Tight content := by
  induction starts with
  | nil => cases h
  | cons s rest ih =>
    rcases List.mem_cons.mp h with same | h
    · cases same
      exact tight_trim _
    · exact ih h

theorem tight_afterFirstWord {content : List Char} (h : Tight content) :
    Tight (afterFirstWord content) := by
  refine ⟨solidStart_trimStart _, h.finish.suffix ?_⟩
  exact (trimStart_suffix _).trans (List.dropWhile_suffix _)

theorem cutFromTrimmed_ofSection (name : List Char) {content : List Char} (h : Tight content) :
    CutFromTrimmed (Tag.ofSection name content).segments := by
  unfold Tag.ofSection
  split
  · exact ⟨_, tight_afterFirstWord h, rfl⟩
  · exact ⟨_, h, rfl⟩

theorem cutFromTrimmed_tag {raw : String} {c : Comment} (h : parse? raw = some c) {t : Tag}
    (mem : t ∈ c.tags) : CutFromTrimmed t.segments := by
  rw [(exists_of_parse? h).2] at mem
  obtain ⟨⟨name, content⟩, section_, rfl⟩ := List.mem_map.mp mem
  exact cutFromTrimmed_ofSection name (tight_of_mem_sections section_)

/-- The text of a comment before its first block tag. -/
def leadText (raw : String) : List Char :=
  let text := undecorate raw.toList
  text.take (stop text (tagStarts text))

theorem body_parse? {raw : String} {c : Comment} (h : parse? raw = some c) :
    c.body = (segments (trim (leadText raw))).map String.ofList := by
  obtain ⟨_, rfl⟩ := exists_of_parse? h
  simp only [ofText, bodyText, leadText]

theorem narrative_parse? {raw : String} {c : Comment} (h : parse? raw = some c) :
    IsTrimmed c.narrative ∧ (c.narrative = "" ↔ allBlank (leadText raw) = true) := by
  have body := body_parse? h
  constructor
  · exact CutFromTrimmed.isTrimmed ⟨trim (leadText raw), tight_trim _, body⟩ "\n"
  · rw [narrative, body, join_eq_empty_iff, trim_eq_nil_iff]

theorem isTrimmed_returnDoc? {raw : String} {c : Comment} (h : parse? raw = some c) {doc : String}
    (found : c.returnDoc? = some doc) : IsTrimmed doc := by
  obtain ⟨t, first, rfl⟩ := Option.map_eq_some_iff.mp found
  exact (cutFromTrimmed_tag h (List.mem_of_find?_eq_some first)).isTrimmed " "

/-! ## The tags that count -/

/-- The last `param` tag for the name. -/
def lastParamTag? (c : Comment) (name : String) : Option Tag :=
  (c.tags.filter fun t => t.kind = "param" ∧ t.name = some name).getLast?

def firstReturnTag? (c : Comment) : Option Tag := (c.tags.filter fun t => t.kind = "return").head?

theorem returnDoc?_eq (c : Comment) : c.returnDoc? = c.firstReturnTag?.map Tag.description := by
  rw [firstReturnTag?, List.head?_filter]
  rfl

theorem describedParam_eq_some_iff {t : Tag} {name : String} :
    describedParam t = some name ↔ t.kind = "param" ∧ t.name = some name := by
  unfold describedParam
  split
  · next param => simp [param]
  · next other => simp [other]

theorem lastParamTag?_snoc (body : List String) (tags : List Tag) (t : Tag) (name : String) :
    lastParamTag? ⟨body, tags ++ [t]⟩ name =
      if describedParam t = some name then some t else lastParamTag? ⟨body, tags⟩ name := by
  simp only [lastParamTag?, List.filter_append, List.filter_singleton,
    ← describedParam_eq_some_iff]
  by_cases described : describedParam t = some name <;> simp [described]

theorem paramDocs_snoc (body : List String) (tags : List Tag) (t : Tag) :
    paramDocs ⟨body, tags ++ [t]⟩ =
      match describedParam t with
      | some name => (paramDocs ⟨body, tags⟩).put name (trimmed t.description)
      | none => paramDocs ⟨body, tags⟩ := by
  simp only [paramDocs, List.foldl_append, List.foldl_cons, List.foldl_nil]
  rfl

/-- Each tag replaces what an earlier one said of the same name. -/
theorem get?_paramDocs (c : Comment) (name : String) :
    c.paramDocs.get? name = (c.lastParamTag? name).map fun t => trimmed t.description := by
  obtain ⟨body, tags⟩ := c
  induction tags using List.reverseRecOn with
  | nil => rfl
  | append_singleton tags t ih =>
    rw [paramDocs_snoc, lastParamTag?_snoc]
    cases described : describedParam t with
    | none => simpa using ih
    | some known =>
      rw [Table.get?_put, ih]
      by_cases same : name = known
      · simp [same]
      · simp [same, Ne.symm same]

/-- Parameter descriptions are trimmed in any comment. -/
theorem isTrimmed_paramDocs {c : Comment} {name doc : String}
    (found : c.paramDocs.get? name = some doc) : IsTrimmed doc := by
  rw [get?_paramDocs, Option.map_eq_some_iff] at found
  obtain ⟨t, -, rfl⟩ := found
  exact isTrimmed_trimmed _

end Comment

end ApiDocs
