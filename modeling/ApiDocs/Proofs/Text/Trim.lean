import ApiDocs.Text.Blank
import Mathlib.Data.List.DropRight
import Mathlib.Data.List.Induction
import Mathlib.Data.List.TakeWhile

/-! Trimming takes the blanks from both ends of a text and nothing else, so a text without blanks at
its ends is what is left of it in any padding. -/

namespace ApiDocs.Text

/-- No blank comes first. -/
def SolidStart (s : List Char) : Prop := ∀ c, s.head? = some c → isBlank c = false

/-- No blank comes last. -/
def SolidEnd (s : List Char) : Prop := ∀ c, s.getLast? = some c → isBlank c = false

structure Tight (s : List Char) : Prop where
  start : SolidStart s
  finish : SolidEnd s

theorem SolidEnd.suffix {s t : List Char} (h : SolidEnd s) (le : t <:+ s) : SolidEnd t := by
  obtain ⟨u, rfl⟩ := le
  intro c last
  refine h c ?_
  rw [List.getLast?_append, last]
  rfl

theorem SolidEnd.append_left {t : List Char} (h : SolidEnd t) (ne : t ≠ []) (s : List Char) :
    SolidEnd (s ++ t) := by
  intro c last
  rw [List.getLast?_append_of_ne_nil s ne] at last
  exact h c last

/-- A run is empty just where the text does not begin with one. -/
theorem takeWhile_eq_nil_iff_head? {p : Char → Bool} {s : List Char} :
    s.takeWhile p = [] ↔ ∀ c, s.head? = some c → p c = false := by
  cases s with
  | nil => simp
  | cons c s => cases h : p c <;> simp [h]

theorem allBlank_iff {s : List Char} : allBlank s = true ↔ ∀ c ∈ s, isBlank c = true :=
  List.all_eq_true

theorem trimEnd_concat (s : List Char) (c : Char) :
    trimEnd (s ++ [c]) = if isBlank c then trimEnd s else s ++ [c] := by
  induction s with
  | nil => rfl
  | cons d s ih =>
    rw [List.cons_append, trimEnd, ih]
    by_cases h : isBlank c = true
    · simp only [h, ↓reduceIte]
      rfl
    · cases s <;> simp [h]

theorem trimEnd_eq_rdropWhile (s : List Char) : trimEnd s = s.rdropWhile isBlank := by
  induction s using List.reverseRecOn with
  | nil => rfl
  | append_singleton s c ih => rw [trimEnd_concat, List.rdropWhile_concat, ih]

theorem trimStart_append_of_allBlank {z : List Char} (h : allBlank z = true) (s : List Char) :
    trimStart (z ++ s) = trimStart s :=
  List.dropWhile_append_of_pos (allBlank_iff.mp h)

theorem trimEnd_append_of_allBlank {z : List Char} (h : allBlank z = true) (s : List Char) :
    trimEnd (s ++ z) = trimEnd s := by
  rw [trimEnd_eq_rdropWhile, trimEnd_eq_rdropWhile, List.rdropWhile, List.reverse_append,
    List.dropWhile_append_of_pos fun c hc => allBlank_iff.mp h c (List.mem_reverse.mp hc),
    List.rdropWhile]

theorem SolidStart.trimStart {s : List Char} (h : SolidStart s) : trimStart s = s := by
  cases s with
  | nil => rfl
  | cons c r => simp [Text.trimStart, h c rfl]

theorem SolidEnd.trimEnd {s : List Char} (h : SolidEnd s) : trimEnd s = s := by
  rw [trimEnd_eq_rdropWhile, List.rdropWhile_eq_self_iff]
  intro ne
  simp [h _ (List.getLast?_eq_getLast_of_ne_nil ne)]

theorem trim_padded {s z z' : List Char} (h : Tight s) (before : allBlank z = true)
    (after : allBlank z' = true) : trim (z ++ s ++ z') = s := by
  rw [trim, List.append_assoc, trimStart_append_of_allBlank before]
  cases s with
  | nil =>
    rw [List.nil_append, trimEnd_eq_nil_iff, trimStart]
    simp [allBlank_iff, List.dropWhile_eq_nil_iff.mpr (allBlank_iff.mp after)]
  | cons c r =>
    have start : SolidStart (c :: r ++ z') := fun d hd => h.start d hd
    rw [start.trimStart, trimEnd_append_of_allBlank after, h.finish.trimEnd]

/-! ## What trimming takes off -/

theorem solidStart_trimStart (s : List Char) : SolidStart (trimStart s) := by
  intro c first
  have notBlank := List.head?_dropWhile_not isBlank s
  rw [trimStart] at first
  simpa [first] using notBlank

theorem solidEnd_trimEnd (s : List Char) : SolidEnd (trimEnd s) := by
  intro c last
  rw [trimEnd_eq_rdropWhile] at last
  have ne : s.rdropWhile isBlank ≠ [] := by
    intro nil
    simp [nil] at last
  rw [List.getLast?_eq_getLast_of_ne_nil ne] at last
  have notBlank := List.rdropWhile_last_not isBlank s ne
  rw [Option.some.inj last] at notBlank
  simpa using notBlank

theorem solidEnd_iff {s : List Char} : SolidEnd s ↔ trimEnd s = s :=
  ⟨SolidEnd.trimEnd, fun h => h ▸ solidEnd_trimEnd s⟩

instance (s : List Char) : Decidable (SolidEnd s) := decidable_of_iff _ solidEnd_iff.symm

theorem trimStart_suffix (s : List Char) : trimStart s <:+ s := List.dropWhile_suffix _

theorem prefix_trimEnd (s : List Char) : trimEnd s <+: s := by
  rw [trimEnd_eq_rdropWhile]
  exact List.rdropWhile_prefix _ _

theorem tight_trim (s : List Char) : Tight (trim s) := by
  refine ⟨fun c first => ?_, solidEnd_trimEnd _⟩
  obtain ⟨u, hu⟩ := prefix_trimEnd (trimStart s)
  refine solidStart_trimStart s c ?_
  rw [← hu, List.head?_append]
  simp [trim] at first
  simp [first]

theorem exists_padding (s : List Char) :
    ∃ z z', allBlank z = true ∧ allBlank z' = true ∧ s = z ++ trim s ++ z' := by
  refine ⟨s.takeWhile isBlank, (trimStart s).rtakeWhile isBlank, ?_, ?_, ?_⟩
  · exact allBlank_iff.mpr fun c hc => List.mem_takeWhile_imp hc
  · exact allBlank_iff.mpr fun c hc => List.mem_rtakeWhile_imp hc
  · rw [trim, trimEnd_eq_rdropWhile, List.append_assoc, List.rdropWhile_append_rtakeWhile,
      trimStart, List.takeWhile_append_dropWhile]

theorem infix_trim (s : List Char) : trim s <:+: s := by
  obtain ⟨z, z', _, _, split⟩ := exists_padding s
  exact ⟨z, z', split.symm⟩

theorem trim_append_blanks (s : List Char) {z : List Char} (blank : allBlank z = true) :
    trim (s ++ z) = trim s := by
  obtain ⟨before, after, first, last, split⟩ := exists_padding s
  have ends : allBlank (after ++ z) = true := by
    rw [allBlank, List.all_append, Bool.and_eq_true]
    exact ⟨last, blank⟩
  nth_rewrite 1 [split]
  rw [List.append_assoc]
  exact trim_padded (tight_trim s) first ends

end ApiDocs.Text
