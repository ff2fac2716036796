import ApiDocs.Proofs.Text.Trim
import Mathlib.Data.List.Chain

/-! Texts no line of which ends with a blank. That is a condition on neighbours in the text with a
line feed after it, so it passes to every part of a text. -/

namespace ApiDocs.Text

theorem unlines_cons (l : List Char) {ls : List (List Char)} (ne : ls ≠ []) :
    unlines (l :: ls) = l ++ '\n' :: unlines ls := by
  cases ls with
  | nil => exact absurd rfl ne
  | cons m ls => simp [unlines]

theorem unlines_append {ls ms : List (List Char)} (ne : ls ≠ []) (ne' : ms ≠ []) :
    unlines (ls ++ ms) = unlines ls ++ '\n' :: unlines ms := by
  induction ls with
  | nil => exact absurd rfl ne
  | cons l ls ih =>
    rw [List.cons_append, unlines_cons l (by simp [ne'])]
    by_cases last : ls = []
    · simp [last, unlines]
    · rw [ih last, unlines_cons l last, List.append_assoc, List.cons_append]

theorem unlines_concat {ls : List (List Char)} (ne : ls ≠ []) (l : List Char) :
    unlines (ls ++ [l]) = unlines ls ++ '\n' :: l := by
  rw [unlines_append ne (by simp)]
  simp [unlines]

theorem lines_ne_nil (s : List Char) : lines s ≠ [] := List.splitOn_ne_nil '\n' s

theorem unlines_lines (s : List Char) : unlines (lines s) = s := List.intercalate_splitOn '\n'

theorem lines_unlines {ls : List (List Char)} (single : ∀ l ∈ ls, '\n' ∉ l) (ne : ls ≠ []) :
    lines (unlines ls) = ls :=
  List.splitOn_intercalate '\n' single ne

theorem lines_append_line (s t : List Char) : lines (s ++ '\n' :: t) = lines s ++ lines t :=
  List.splitOn_append_cons_self s t

theorem lines_of_not_mem {l : List Char} (single : '\n' ∉ l) : lines l = [l] :=
  List.splitOn_eq_singleton single

theorem takeWhile_unlines_cons {l : List Char} (single : '\n' ∉ l) (ls : List (List Char)) :
    (unlines (l :: ls)).takeWhile (fun c => c != '\n') = l := by
  have all : ∀ c ∈ l, (c != '\n') = true := by
    intro c mem
    rw [bne_iff_ne]
    rintro rfl
    exact single mem
  by_cases last : ls = []
  · have own : unlines [l] = l := by simp [unlines]
    rw [last, own]
    exact List.takeWhile_eq_self_iff.mpr all
  · rw [unlines_cons l last, List.takeWhile_append_of_pos all]
    simp

theorem lines_append_lines {ls : List (List Char)} (single : ∀ l ∈ ls, '\n' ∉ l) (t : List Char) :
    lines ((ls.flatMap fun l => l ++ ['\n']) ++ t) = ls ++ lines t := by
  induction ls with
  | nil => rfl
  | cons l ls ih =>
    obtain ⟨first, rest⟩ := List.forall_mem_cons.mp single
    rw [List.flatMap_cons, List.append_assoc, List.append_assoc, List.singleton_append,
      lines_append_line, lines_of_not_mem first, ih rest]
    rfl

theorem not_mem_of_mem_lines {s l : List Char} (h : l ∈ lines s) : '\n' ∉ l := by
  induction s generalizing l with
  | nil =>
    cases List.mem_singleton.mp h
    simp
  | cons c s ih =>
    rw [lines, List.splitOn_cons_eq_if_modifyHead] at h
    by_cases newline : c = '\n'
    · simp only [newline, beq_self_eq_true, ↓reduceIte] at h
      rcases List.mem_cons.mp h with rfl | h
      · simp
      · exact ih h
    · obtain ⟨m, ms, cut⟩ := List.exists_cons_of_ne_nil (lines_ne_nil s)
      rw [lines] at cut ih
      rw [cut] at h ih
      simp only [beq_iff_eq, newline, ↓reduceIte, List.modifyHead_cons] at h
      rcases List.mem_cons.mp h with rfl | h
      · simpa [Ne.symm newline] using ih List.mem_cons_self
      · exact ih (List.mem_cons_of_mem m h)

/-! ## Line ends -/

/-- Before a line feed no blank stands but another line feed. -/
def MayPrecede (c d : Char) : Prop := d = '\n' → isBlank c = true → c = '\n'

/-- No line ends with a blank. -/
def Flush (s : List Char) : Prop := (s ++ ['\n']).IsChain MayPrecede

theorem mayPrecede_newline (d : Char) : MayPrecede '\n' d := fun _ _ => rfl

theorem mayPrecede_of_solid {c : Char} (h : isBlank c = false) (d : Char) : MayPrecede c d := by
  intro _ blank
  simp [h] at blank

theorem flush_append_line {s t : List Char} : Flush (s ++ '\n' :: t) ↔ Flush s ∧ Flush t := by
  unfold Flush
  rw [List.append_assoc, List.cons_append, List.isChain_split, List.isChain_cons]
  simp [mayPrecede_newline]

/-- A part of the text that ends where a line may end. -/
theorem Flush.part {s t : List Char} (h : Flush s) (within : t <:+: s) (finish : SolidEnd t) :
    Flush t := by
  have chain : t.IsChain MayPrecede := List.IsChain.infix h.left_of_append within
  refine chain.append (.singleton _) fun c last d _ => ?_
  exact mayPrecede_of_solid (finish c last) d

theorem Flush.append_solid {s t : List Char} (solid : ∀ c ∈ s, isBlank c = false) (h : Flush t) :
    Flush (s ++ t) := by
  induction s with
  | nil => exact h
  | cons c s ih =>
    refine List.isChain_cons.mpr ⟨fun d _ => ?_, ih fun d hd => solid d (List.mem_cons_of_mem c hd)⟩
    exact mayPrecede_of_solid (solid c List.mem_cons_self) d

theorem Flush.cons_space {t : List Char} (h : Flush t) (start : SolidStart t) (ne : t ≠ []) :
    Flush (' ' :: t) := by
  obtain ⟨c, r, rfl⟩ := List.exists_cons_of_ne_nil ne
  refine List.isChain_cons.mpr ⟨?_, h⟩
  rintro d first rfl
  cases first
  have solid : isBlank '\n' = false := start '\n' rfl
  simp [isBlank] at solid

/-- A text with more lines behind it. -/
theorem Flush.append_lines {α : Type} {s : List Char} {l : List α} {f : α → List Char}
    (h : Flush s) (each : ∀ x ∈ l, Flush (f x)) : Flush (s ++ l.flatMap fun x => '\n' :: f x) := by
  induction l generalizing s with
  | nil => simpa using h
  | cons x l ih =>
    obtain ⟨first, rest⟩ := List.forall_mem_cons.mp each
    rw [List.flatMap_cons, ← List.append_assoc]
    exact ih (flush_append_line.mpr ⟨h, first⟩) rest

/-- In a single line there is one end, and it may not be blank. -/
theorem flush_line {l : List Char} (single : '\n' ∉ l) : Flush l ↔ SolidEnd l := by
  unfold Flush
  rw [List.isChain_append]
  constructor
  · rintro ⟨_, _, join⟩ c last
    rw [← Bool.not_eq_true]
    intro blank
    have newline : c = '\n' := join c last '\n' rfl rfl blank
    exact single (newline ▸ List.mem_of_getLast? last)
  · intro finish
    refine ⟨?_, .singleton _, fun c last d _ => mayPrecede_of_solid (finish c last) d⟩
    refine List.isChain_iff_forall_rel_of_append_cons_cons.mpr ?_
    rintro c d before after rfl rfl
    simp at single

theorem flush_unlines {ls : List (List Char)} (ne : ls ≠ []) :
    Flush (unlines ls) ↔ ∀ l ∈ ls, Flush l := by
  induction ls with
  | nil => exact absurd rfl ne
  | cons l ls ih =>
    by_cases last : ls = []
    · simp [last, unlines]
    · rw [unlines_cons l last, flush_append_line, ih last, List.forall_mem_cons]

theorem flush_iff {s : List Char} : Flush s ↔ ∀ l ∈ lines s, SolidEnd l := by
  rw [← unlines_lines s, flush_unlines (lines_ne_nil s), unlines_lines]
  exact forall₂_congr fun l hl => flush_line (not_mem_of_mem_lines hl)

end ApiDocs.Text
