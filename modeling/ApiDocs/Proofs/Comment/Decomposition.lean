import ApiDocs.Proofs.Comment.Inline
import Mathlib.Data.List.Chain
import Mathlib.Data.List.Infix

/-! The segments of a text are its only decomposition into plain runs and inline tags. What counts
as one is said of the pieces themselves: whether an inline tag opens in them, and how many braces
are open behind each of their characters. -/

namespace ApiDocs.Comment

/-- No inline tag opens in the text. -/
def Plain (s : List Char) : Prop := ¬ ['{', '@'] <:+: s

/-- Opening braces less closing ones. -/
def balance (s : List Char) : Int := s.count '{' - s.count '}'

/-- Where `depth` braces are open in front, the count is not zero behind any character but the
last. -/
def OpenInside (depth : Int) (s : List Char) : Prop :=
  ∀ p, p <+: s → p ≠ [] → p ≠ s → depth + balance p ≠ 0

/-- The count of braces is zero behind the last character and not before. -/
def Closed (s : List Char) : Prop := balance s = 0 ∧ OpenInside 0 s

/-- The count of braces is zero behind no character. -/
def Unclosed (s : List Char) : Prop := balance s ≠ 0 ∧ OpenInside 0 s

/-- The text in pieces. Each is a plain run, not broken in two, or an inline tag; only the last of
them may lack its end. -/
structure Decomposes (text : List Char) (l : List (List Char)) : Prop where
  flatten : l.flatten = text
  filled : [] ∉ l
  part : ∀ before s after, l = before ++ s :: after →
    Plain s ∨ Opens s ∧ (Closed s ∨ after = [] ∧ Unclosed s)
  apart : l.IsChain fun s t => ¬ (Plain s ∧ Plain t)

/-! ## Plain runs -/

theorem plain_cons {c : Char} {s : List Char} : Plain (c :: s) ↔ ¬ Opens (c :: s) ∧ Plain s := by
  rw [Plain, List.infix_cons_iff, not_or]
  rfl

theorem plain_nil : Plain [] := by
  simp [Plain]

theorem not_plain_of_opens {s : List Char} (h : Opens s) : ¬ Plain s := fun plain =>
  plain h.isInfix

theorem ne_nil_of_opens {s : List Char} (h : Opens s) : s ≠ [] := by
  rintro rfl
  simp [Opens] at h

theorem opens_append {s : List Char} (h : Opens s) (u : List Char) : Opens (s ++ u) :=
  h.trans (List.prefix_append s u)

/-- The text goes on with an inline tag, if at all. -/
def Paused (u : List Char) : Prop := u = [] ∨ Opens u

/-- What is plain by itself is plain in front of an inline tag. -/
theorem not_opens_of_plain {c : Char} {s u : List Char} (plain : Plain (c :: s))
    (paused : Paused u) : ¬ Opens (c :: (s ++ u)) := by
  have alone := (plain_cons.mp plain).1
  rw [opens_cons] at alone ⊢
  cases s with
  | cons d s => exact alone
  | nil =>
    rintro ⟨-, sign⟩
    rcases paused with rfl | ⟨rest, rfl⟩ <;> cases sign

theorem cutAtOpening_append {s u : List Char} (plain : Plain s) (paused : Paused u) :
    cutAtOpening (s ++ u) = (s, u) := by
  induction s with
  | nil =>
    rcases paused with rfl | ⟨rest, rfl⟩
    · rfl
    · exact if_pos ⟨rest, rfl⟩
  | cons c s ih =>
    rw [List.cons_append, cutAtOpening, if_neg (not_opens_of_plain plain paused),
      ih (plain_cons.mp plain).2]

theorem exists_plain (text : List Char) : ∃ s u, text = s ++ u ∧ Plain s ∧ Paused u := by
  induction text with
  | nil => exact ⟨[], [], rfl, plain_nil, .inl rfl⟩
  | cons c r ih =>
    by_cases opens : Opens (c :: r)
    · exact ⟨[], c :: r, rfl, plain_nil, .inr opens⟩
    · obtain ⟨s, u, rfl, plain, paused⟩ := ih
      refine ⟨c :: s, u, rfl, plain_cons.mpr ⟨?_, plain⟩, paused⟩
      exact fun early => opens (opens_append early u)

/-! ## Inline tags -/

theorem balance_cons (c : Char) (s : List Char) : balance (c :: s) = balance [c] + balance s := by
  simp only [balance, List.count_cons, List.count_nil]
  omega

theorem openInside_nil (depth : Int) : OpenInside depth [] := fun _ front filled =>
  absurd (List.prefix_nil.mp front) filled

theorem openInside_cons {depth : Int} {c : Char} {s : List Char} :
    OpenInside depth (c :: s) ↔
      (s ≠ [] → depth + balance [c] ≠ 0) ∧ OpenInside (depth + balance [c]) s := by
  constructor
  · intro h
    refine ⟨fun more => h [c] (by simp) (by simp) (by simpa using more.symm), ?_⟩
    intro p front filled part
    have longer := h (c :: p) (List.cons_prefix_cons.mpr ⟨rfl, front⟩) (by simp) (by simpa using part)
    rw [balance_cons] at longer
    omega
  · rintro ⟨first, rest⟩ p front filled part
    obtain ⟨d, p, rfl⟩ := List.exists_cons_of_ne_nil filled
    obtain ⟨rfl, shorter⟩ := List.cons_prefix_cons.mp front
    by_cases none : p = []
    · subst none
      exact first (by simpa using part.symm)
    · have later := rest p shorter none (by simpa using part)
      rw [balance_cons]
      omega

theorem balance_single (c : Char) :
    balance [c] = if c = '{' then 1 else if c = '}' then -1 else 0 := by
  by_cases opening : c = '{'
  · simp [balance, opening]
  · by_cases closing : c = '}' <;> simp [balance, opening, closing]

/-- The search for the end of an inline tag stops where the count of braces gets to zero. -/
theorem cutAtClosing_cons {depth next : Nat} (inside : depth ≠ 0) {c : Char}
    (count : (next : Int) = depth + balance [c]) (r : List Char) :
    cutAtClosing depth (c :: r) =
      if next = 0 then ([c], r)
      else (c :: (cutAtClosing next r).1, (cutAtClosing next r).2) := by
  rw [cutAtClosing]
  by_cases opening : c = '{'
  · have rises : next = depth + 1 := by
      simp only [balance_single, opening, ↓reduceIte] at count
      omega
    simp [opening, rises]
  · by_cases closing : c = '}'
    · have falls : next = depth - 1 ∧ (depth = 1 ↔ next = 0) := by
        simp only [balance_single, closing, Char.reduceEq, ↓reduceIte] at count
        omega
      simp [closing, falls]
    · have stays : next = depth := by
        simp only [balance_single, opening, closing, ↓reduceIte] at count
        omega
      simp [opening, closing, stays, inside]

theorem cutAtClosing_append {depth : Nat} {s u : List Char} (inside : depth ≠ 0)
    (open_ : OpenInside depth s) (ends : (depth : Int) + balance s = 0 ∨ u = []) :
    cutAtClosing depth (s ++ u) = (s, u) := by
  induction s generalizing depth with
  | nil =>
    have none : u = [] := ends.resolve_left (by simpa [balance] using inside)
    rw [none]
    rfl
  | cons c s ih =>
    obtain ⟨first, rest⟩ := openInside_cons.mp open_
    obtain ⟨next, count⟩ : ∃ next : Nat, (next : Int) = depth + balance [c] := by
      refine ⟨(depth + balance [c]).toNat, Int.toNat_of_nonneg ?_⟩
      rw [balance_single]
      split
      · omega
      · split <;> omega
    rw [← count] at first rest
    rw [balance_cons, ← Int.add_assoc, ← count] at ends
    rw [List.cons_append, cutAtClosing_cons inside count]
    by_cases zero : next = 0
    · have last : s = [] := by
        by_contra more
        exact first more (by omega)
      rw [if_pos zero, last, List.nil_append]
    · rw [if_neg zero, ih zero rest ends]

theorem exists_openInside (depth : Int) (text : List Char) :
    ∃ s u, text = s ++ u ∧ OpenInside depth s ∧ (depth + balance s = 0 ∨ u = []) := by
  induction text generalizing depth with
  | nil => exact ⟨[], [], rfl, openInside_nil depth, .inr rfl⟩
  | cons c r ih =>
    by_cases zero : depth + balance [c] = 0
    · exact ⟨[c], r, rfl, openInside_cons.mpr ⟨by simp, openInside_nil _⟩, .inl zero⟩
    · obtain ⟨s, u, rfl, open_, ends⟩ := ih (depth + balance [c])
      refine ⟨c :: s, u, rfl, openInside_cons.mpr ⟨fun _ => zero, open_⟩, ?_⟩
      rwa [balance_cons, ← Int.add_assoc]

/-- An inline tag is at least the brace and the at sign. -/
theorem exists_inline {text : List Char} (h : Opens text) :
    ∃ s u, text = s ++ u ∧ Opens s ∧ (Closed s ∨ u = [] ∧ Unclosed s) := by
  obtain ⟨r, rfl⟩ := h
  obtain ⟨s, u, rfl, open_, ends⟩ := exists_openInside 1 r
  have inside : OpenInside 0 ('{' :: '@' :: s) := by
    refine openInside_cons.mpr ⟨by simp [balance], openInside_cons.mpr ⟨by simp [balance], ?_⟩⟩
    simpa [balance] using open_
  refine ⟨'{' :: '@' :: s, u, rfl, ⟨s, rfl⟩, ?_⟩
  by_cases zero : balance ('{' :: '@' :: s) = 0
  · exact .inl ⟨zero, inside⟩
  · have same : balance ('{' :: '@' :: s) = 1 + balance s := by
      rw [balance_cons, balance_cons '@']
      simp [balance]
    exact .inr ⟨ends.resolve_left (same ▸ zero), zero, inside⟩

theorem cutAtClosing_inline {t u : List Char} (opens : Opens t) (open_ : OpenInside 0 t)
    (ends : balance t = 0 ∨ u = []) : cutAtClosing 0 (t ++ u) = (t, u) := by
  obtain ⟨rest, rfl⟩ := opens
  change OpenInside 0 ('{' :: '@' :: rest) at open_
  change balance ('{' :: '@' :: rest) = 0 ∨ u = [] at ends
  have inside : OpenInside (1 : Nat) ('@' :: rest) := by
    simpa [balance] using (openInside_cons.mp open_).2
  have behind := cutAtClosing_append (by decide) inside (by rwa [balance_cons] at ends)
  change cutAtClosing 0 ('{' :: ('@' :: rest ++ u)) = _
  rw [cutAtClosing_brace, behind]
  rfl

/-! ## The segments one by one -/

/-- The search takes a plain run off the text, and then an inline tag. -/
theorem searched_append {s t u : List Char} (plain : Plain s) (opens : Opens t)
    (open_ : OpenInside 0 t) (ends : balance t = 0 ∨ u = []) :
    searched (s ++ (t ++ u)) = s :: t :: searched u := by
  have opening := cutAtOpening_append plain (.inr (opens_append opens u))
  obtain ⟨c, r, text⟩ := List.exists_cons_of_ne_nil (l := s ++ (t ++ u))
    (by simp [ne_nil_of_opens opens])
  rw [text] at opening ⊢
  rw [searched]
  split
  · next none =>
    rw [opening] at none
    simp [ne_nil_of_opens opens] at none
  · next d tag cut =>
    rw [opening] at cut
    rw [← cut, opening, cutAtClosing_inline opens open_ ends]

theorem searched_plain {s : List Char} (plain : Plain s) (filled : s ≠ []) : searched s = [s] := by
  have opening := cutAtOpening_append (u := []) plain (.inl rfl)
  obtain ⟨c, r, rfl⟩ := List.exists_cons_of_ne_nil filled
  rw [List.append_nil] at opening
  rw [searched]
  split
  · rfl
  · next d tag cut =>
    rw [opening] at cut
    cases cut

theorem segments_append_inline {t u : List Char} (opens : Opens t) (open_ : OpenInside 0 t)
    (ends : balance t = 0 ∨ u = []) : segments (t ++ u) = t :: segments u := by
  have found := searched_append plain_nil opens open_ ends
  rw [segments_eq_searched, segments_eq_searched, ← List.nil_append (t ++ u), found]
  simp [withoutEmpty, ne_nil_of_opens opens]

theorem segments_append_plain {s u : List Char} (plain : Plain s) (filled : s ≠ [])
    (paused : Paused u) : segments (s ++ u) = s :: segments u := by
  rcases paused with rfl | opens
  · rw [List.append_nil, segments_eq_searched, searched_plain plain filled, withoutEmpty,
      List.filter_cons_of_pos (by simpa using filled)]
    rfl
  · obtain ⟨t, v, rfl, opens, ends⟩ := exists_inline opens
    have open_ : OpenInside 0 t := ends.elim And.right fun h => h.2.2
    have stops : balance t = 0 ∨ v = [] := ends.imp And.left And.left
    rw [segments_append_inline opens open_ stops, segments_eq_searched,
      searched_append plain opens open_ stops, segments_eq_searched]
    simp [withoutEmpty, filled, ne_nil_of_opens opens]

/-! ## The decomposition -/

namespace Decomposes

variable {text s : List Char} {l : List (List Char)}

theorem tail (h : Decomposes text (s :: l)) : Decomposes l.flatten l where
  flatten := rfl
  filled := fun mem => h.filled (List.mem_cons_of_mem s mem)
  part := fun before t after split => h.part (s :: before) t after (by rw [split]; rfl)
  apart := (List.isChain_cons.mp h.apart).2

/-- Behind a plain run comes an inline tag, if anything. -/
theorem paused (h : Decomposes text (s :: l)) (plain : Plain s) : Paused l.flatten := by
  cases l with
  | nil => exact .inl rfl
  | cons t l =>
    have inline : ¬ Plain t := fun other => (List.isChain_cons_cons.mp h.apart).1 ⟨plain, other⟩
    obtain ⟨opens, _⟩ := (h.part [s] t l rfl).resolve_left inline
    exact .inr (opens_append opens l.flatten)

theorem eq_segments (h : Decomposes text l) : l = segments text := by
  induction l generalizing text with
  | nil =>
    rw [← h.flatten]
    rfl
  | cons s l ih =>
    have rest := ih h.tail
    rw [← h.flatten, List.flatten_cons]
    rcases h.part [] s l rfl with plain | ⟨opens, closed | ⟨last, unclosed⟩⟩
    · have filled : s ≠ [] := fun none => h.filled (by simp [none])
      rw [segments_append_plain plain filled (h.paused plain), ← rest]
    · rw [segments_append_inline opens closed.2 (.inl closed.1), ← rest]
    · rw [segments_append_inline opens unclosed.2 (.inr (by rw [last]; rfl)), ← rest]

theorem nil : Decomposes [] [] where
  flatten := rfl
  filled := by simp
  part := by simp
  apart := .nil

theorem cons {u : List Char} (h : Decomposes u l) (filled : s ≠ [])
    (part : Plain s ∨ Opens s ∧ (Closed s ∨ l = [] ∧ Unclosed s))
    (apart : ∀ t ∈ l.head?, ¬ (Plain s ∧ Plain t)) : Decomposes (s ++ u) (s :: l) where
  flatten := by rw [List.flatten_cons, h.flatten]
  filled := by
    rw [List.mem_cons, not_or]
    exact ⟨filled.symm, h.filled⟩
  part := by
    intro before t after split
    cases before with
    | nil =>
      cases split
      exact part
    | cons b before =>
      cases split
      exact h.part before t after rfl
  apart := List.isChain_cons.mpr ⟨apart, h.apart⟩

end Decomposes

theorem exists_decomposition (text : List Char) : ∃ l, Decomposes text l := by
  induction size : text.length using Nat.strongRecOn generalizing text with
  | ind n shorter =>
    obtain ⟨s, u, rfl, plain, paused⟩ := exists_plain text
    have behind : ∃ l, Decomposes u l ∧ ∀ t ∈ l.head?, ¬ Plain t := by
      rcases paused with rfl | opens
      · exact ⟨[], .nil, by simp⟩
      · obtain ⟨t, v, rfl, opens, ends⟩ := exists_inline opens
        have ne := ne_nil_of_opens opens
        have less : v.length < n := by
          have := List.length_pos_of_ne_nil ne
          simp only [List.length_append] at size
          omega
        obtain ⟨l, h⟩ := shorter v.length less v rfl
        have last : v = [] → l = [] := by
          rintro rfl
          exact h.eq_segments
        refine ⟨t :: l, h.cons ne (.inr ⟨opens, ends.imp_right (And.imp_left last)⟩) ?_, ?_⟩
        · exact fun _ _ both => not_plain_of_opens opens both.1
        · simpa using not_plain_of_opens opens
    obtain ⟨l, h, inline⟩ := behind
    by_cases none : s = []
    · exact ⟨l, by simpa [none] using h⟩
    · exact ⟨s :: l, h.cons none (.inl plain) fun t first both => inline t first both.2⟩

theorem decomposes_segments (text : List Char) : Decomposes text (segments text) := by
  obtain ⟨l, h⟩ := exists_decomposition text
  rwa [← h.eq_segments]

theorem toList_splitSegments (text : String) :
    (splitSegments text).map String.toList = segments text.toList := by
  simp [splitSegments, Function.comp_def]

/-- The segments of a text are a decomposition of it, and no other list of texts is. -/
theorem decomposes_iff_splitSegments (text : String) (l : List String) :
    Decomposes text.toList (l.map String.toList) ↔ l = splitSegments text := by
  constructor
  · intro h
    refine List.map_injective_iff.mpr (fun _ _ => String.toList_inj.mp) ?_
    rw [h.eq_segments, toList_splitSegments]
  · rintro rfl
    rw [toList_splitSegments]
    exact decomposes_segments text.toList

/-- A brace in front of an inline tag, one inside of it, and an inline tag without an end. -/
example : splitSegments "\x7b\x7b@x\x7b\x7d\x7d\x7d\x7b@a\x7bb\x7d" =
    ["\x7b", "\x7b@x\x7b\x7d\x7d", "\x7d", "\x7b@a\x7bb\x7d"] := by
  decide +kernel

end ApiDocs.Comment
