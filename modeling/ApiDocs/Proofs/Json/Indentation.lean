import ApiDocs.Proofs.Json.Spelling
import ApiDocs.Proofs.Text.Lines

/-! The lines of a rendered value. A scanner that knows string literals and counts brackets finds
itself as deep behind a value as before it, whatever brackets and quotes the strings hold; so every
line is indented by what is open in front of it. -/

namespace ApiDocs.Json

open Text

/-! ## What is open -/

inductive Zone where
  | outside
  /-- In a string literal. -/
  | inside
  /-- In a string literal, behind a backslash. -/
  | escape
deriving DecidableEq, Repr

/-- What a text leaves open: a string literal or none, and brackets. -/
structure Nesting where
  zone : Zone := .outside
  depth : Nat := 0
deriving DecidableEq, Repr

def isOpening (c : Char) : Bool := c == '[' || c == '{'

def isClosing (c : Char) : Bool := c == ']' || c == '}'

namespace Nesting

/-- Brackets count outside of string literals only. -/
def next (x : Nesting) (c : Char) : Nesting :=
  match x.zone with
  | .outside =>
    if c = '"' then ⟨.inside, x.depth⟩
    else if isOpening c then ⟨.outside, x.depth + 1⟩
    else if isClosing c then ⟨.outside, x.depth - 1⟩
    else x
  | .inside =>
    if c = '"' then ⟨.outside, x.depth⟩
    else if c = '\\' then ⟨.escape, x.depth⟩
    else x
  | .escape => ⟨.inside, x.depth⟩

def past (x : Nesting) (s : List Char) : Nesting := s.foldl next x

end Nesting

/-- The brackets that these lines open and do not close. -/
def openBehind (above : List (List Char)) : Nat := (Nesting.past {} (unlines above)).depth

/-! ## Neat texts -/

/-- A closing bracket stands as far to the left as the line that opened it. -/
def outdent (c : Char) : Nat := if isClosing c then 1 else 0

/-- The first line begins with the spaces for its depth and then something else. -/
def Indented (indent depth : Nat) (s : List Char) : Prop :=
  ∃ k c rest, s = List.replicate (indent * k) ' ' ++ c :: rest ∧ c ≠ ' ' ∧ c ≠ '\n' ∧
    depth = k + outdent c

/-- There are no controls but line feeds; those are outside of string literals, with an indented
line behind each. -/
def Neat (indent : Nat) (x : Nesting) : List Char → Prop
  | [] => True
  | c :: s =>
    (c.toNat < 0x20 → c = '\n') ∧ (c = '\n' → x.zone = .outside ∧ Indented indent x.depth s) ∧
      Neat indent (x.next c) s

section

variable {indent : Nat} {x : Nesting} {s t : List Char}

theorem Neat.of_mem (h : Neat indent x s) {c : Char} (mem : c ∈ s) (control : c.toNat < 0x20) :
    c = '\n' := by
  induction s generalizing x with
  | nil => cases mem
  | cons d s ih =>
    obtain ⟨here, _, rest⟩ := h
    rcases List.mem_cons.mp mem with rfl | mem
    · exact here control
    · exact ih rest mem

theorem Neat.behind (h : Neat indent x (s ++ t)) : Neat indent (x.past s) t := by
  induction s generalizing x with
  | nil => exact h
  | cons c s ih => exact ih h.2.2

theorem Neat.at_newline (h : Neat indent x (s ++ '\n' :: t)) :
    (x.past s).zone = .outside ∧ Indented indent (x.past s).depth t :=
  h.behind.2.1 rfl

end

/-! ## Parts of the text -/

section

variable {indent d : Nat} {rest : List Char}

/-- Only a line feed needs more than a neat rest. -/
theorem neat_cons {x : Nesting} {c : Char} (shown : 0x20 ≤ c.toNat)
    (h : Neat indent (x.next c) rest) : Neat indent x (c :: rest) := by
  refine ⟨fun control => absurd control (by omega), ?_, h⟩
  rintro rfl
  exact absurd shown (by decide)

theorem neat_inside {c : Char} (shown : 0x20 ≤ c.toNat) (quote : c ≠ '"') (backslash : c ≠ '\\')
    (h : Neat indent ⟨.inside, d⟩ rest) : Neat indent ⟨.inside, d⟩ (c :: rest) := by
  refine neat_cons shown ?_
  simpa [Nesting.next, quote, backslash] using h

/-- A backslash takes the next character with it. -/
theorem neat_escape {c : Char} (shown : 0x20 ≤ c.toNat) (h : Neat indent ⟨.inside, d⟩ rest) :
    Neat indent ⟨.inside, d⟩ ('\\' :: c :: rest) :=
  neat_cons (by decide) (neat_cons shown h)

theorem neat_digit {k : Nat} (small : k < 16) (h : Neat indent ⟨.inside, d⟩ rest) :
    Neat indent ⟨.inside, d⟩ (Nat.digitChar k :: rest) := by
  have all : ∀ k < 16, 0x20 ≤ (Nat.digitChar k).toNat ∧ Nat.digitChar k ≠ '"' ∧
      Nat.digitChar k ≠ '\\' := by decide
  obtain ⟨shown, quote, backslash⟩ := all k small
  exact neat_inside shown quote backslash h

theorem neat_escapeChar (c : Char) (h : Neat indent ⟨.inside, d⟩ rest) :
    Neat indent ⟨.inside, d⟩ (escapeChar c ++ rest) := by
  unfold escapeChar
  split_ifs with quoted line ret tab back feed control
  · rcases quoted with rfl | rfl
    · exact neat_escape (by decide) h
    · exact neat_escape (by decide) h
  · exact neat_escape (by decide) h
  · exact neat_escape (by decide) h
  · exact neat_escape (by decide) h
  · exact neat_escape (by decide) h
  · exact neat_escape (by decide) h
  · have zero : '0' = Nat.digitChar 0 := rfl
    rw [hex_control control, zero]
    have low := neat_digit (show c.toNat % 16 < 16 by omega) h
    have high := neat_digit (show c.toNat / 16 < 16 by omega) low
    exact neat_escape (by decide) (neat_digit (by omega) (neat_digit (by omega) high))
  · obtain ⟨quote, backslash⟩ := not_or.mp quoted
    exact neat_inside (by omega) quote backslash h

theorem neat_escaped (chars : List Char) (h : Neat indent ⟨.inside, d⟩ rest) :
    Neat indent ⟨.inside, d⟩ (chars.flatMap escapeChar ++ rest) := by
  induction chars with
  | nil => exact h
  | cons c chars ih =>
    rw [List.flatMap_cons, List.append_assoc]
    exact neat_escapeChar c ih

/-- Whatever it holds, a string literal leaves open what was open. -/
theorem neat_literal (s : String) (h : Neat indent ⟨.outside, d⟩ rest) :
    Neat indent ⟨.outside, d⟩ (literal s ++ rest) := by
  have closed : Neat indent ⟨.inside, d⟩ ('"' :: rest) := neat_cons (by decide) h
  rw [literal, List.append_assoc]
  exact neat_cons (by decide) (neat_escaped s.toList closed)

theorem neat_spaces (n : Nat) (h : Neat indent ⟨.outside, d⟩ rest) :
    Neat indent ⟨.outside, d⟩ (List.replicate n ' ' ++ rest) := by
  induction n with
  | zero => exact h
  | succ n ih => exact neat_cons (by decide) ih

theorem neat_newline {k : Nat} {c : Char} (space : c ≠ ' ') (line : c ≠ '\n')
    (depth : d = k + outdent c) (h : Neat indent ⟨.outside, d⟩ (c :: rest)) :
    Neat indent ⟨.outside, d⟩ (newline indent k ++ c :: rest) :=
  ⟨fun _ => rfl, fun _ => ⟨rfl, k, c, rest, rfl, space, line, depth⟩, neat_spaces _ h⟩

/-- The comma before every item but the first. -/
theorem neat_comma (first : Bool) (h : Neat indent ⟨.outside, d⟩ rest) :
    Neat indent ⟨.outside, d⟩ ((if first then [] else [',']) ++ rest) := by
  cases first with
  | true => exact h
  | false => exact neat_cons (by decide) h

theorem neat_colon (h : Neat indent ⟨.outside, d⟩ rest) :
    Neat indent ⟨.outside, d⟩ (':' :: ' ' :: rest) :=
  neat_cons (by decide) (neat_cons (by decide) h)

theorem neat_newline_literal {s : String} (h : Neat indent ⟨.outside, d⟩ (literal s ++ rest)) :
    Neat indent ⟨.outside, d⟩ (newline indent d ++ (literal s ++ rest)) :=
  neat_newline (c := '"') (by decide) (by decide) rfl h

theorem neat_closing {b : Char} (closing : b = ']' ∨ b = '}')
    (h : Neat indent ⟨.outside, d⟩ rest) : Neat indent ⟨.outside, d + 1⟩ (b :: rest) := by
  rcases closing with rfl | rfl
  · exact neat_cons (by decide) h
  · exact neat_cons (by decide) h

/-- The end of a list or object, on a line of its own if there is something in it. -/
theorem neat_ending (first : Bool) {b : Char} (closing : b = ']' ∨ b = '}')
    (h : Neat indent ⟨.outside, d⟩ rest) :
    Neat indent ⟨.outside, d + 1⟩ ((if first then [] else newline indent d) ++ b :: rest) := by
  have last := neat_closing closing h
  cases first with
  | true => exact last
  | false =>
    rcases closing with rfl | rfl
    · exact neat_newline (by decide) (by decide) rfl last
    · exact neat_newline (by decide) (by decide) rfl last

end

/-! ## Values -/

/-- A value begins with neither a blank nor the end of another one. -/
theorem exists_render_cons (indent d : Nat) {v : Json} (h : v.plain = true) :
    ∃ c r, render indent d v = c :: r ∧ c ≠ ' ' ∧ c ≠ '\n' ∧ outdent c = 0 := by
  cases v with
  | str s => exact ⟨'"', _, by rw [render, literal]; rfl, by decide, by decide, rfl⟩
  | word w => simp [plain] at h
  | arr items => exact ⟨'[', _, by rw [render]; rfl, by decide, by decide, rfl⟩
  | obj fields => exact ⟨'{', _, by rw [render]; rfl, by decide, by decide, rfl⟩

mutual

/-- A value leaves open what was open, and its lines are indented from there. -/
theorem neat_render (indent d : Nat) (rest : List Char) (h : Neat indent ⟨.outside, d⟩ rest) :
    ∀ v : Json, v.plain = true → Neat indent ⟨.outside, d⟩ (render indent d v ++ rest)
  | .str s, _ => by
    rw [render]
    exact neat_literal s h
  | .word _, plain => by
    simp [Json.plain] at plain
  | .arr items, plain => by
    have inner := neat_renderItems indent d true rest h items (by simpa [Json.plain] using plain)
    rw [render, List.append_assoc]
    exact neat_cons (by decide) inner
  | .obj fields, plain => by
    have inner := neat_renderFields indent d true rest h fields (by simpa [Json.plain] using plain)
    rw [render, List.append_assoc]
    exact neat_cons (by decide) inner

theorem neat_renderItems (indent d : Nat) (first : Bool) (rest : List Char)
    (h : Neat indent ⟨.outside, d⟩ rest) :
    ∀ items : List Json, allPlain items = true →
      Neat indent ⟨.outside, d + 1⟩ (renderItems indent d first items ++ ']' :: rest)
  | [], _ => by
    rw [renderItems]
    exact neat_ending first (.inl rfl) h
  | v :: items, plain => by
    obtain ⟨hv, hitems⟩ : v.plain = true ∧ allPlain items = true := by
      simpa [allPlain] using plain
    have others := neat_renderItems indent d false rest h items hitems
    have value := neat_render indent (d + 1) _ others v hv
    obtain ⟨c, r, head, space, line, start⟩ := exists_render_cons indent (d + 1) hv
    rw [head] at value
    have begun := neat_newline space line (by rw [start]) value
    rw [renderItems, head]
    simpa using neat_comma first begun

theorem neat_renderFields (indent d : Nat) (first : Bool) (rest : List Char)
    (h : Neat indent ⟨.outside, d⟩ rest) :
    ∀ fields : List (String × Json), allFieldsPlain fields = true →
      Neat indent ⟨.outside, d + 1⟩ (renderFields indent d first fields ++ '}' :: rest)
  | [], _ => by
    rw [renderFields]
    exact neat_ending first (.inr rfl) h
  | (key, v) :: fields, plain => by
    obtain ⟨hv, hfields⟩ : v.plain = true ∧ allFieldsPlain fields = true := by
      simpa [allFieldsPlain] using plain
    have others := neat_renderFields indent d false rest h fields hfields
    have value := neat_render indent (d + 1) _ others v hv
    have named := neat_literal key (neat_colon value)
    have begun := neat_newline_literal named
    rw [renderFields]
    simpa using neat_comma first begun

end

/-! ## Lines -/

/-- The first line stands at the start of the text, and each other one behind a line end. -/
theorem indented_behind {indent : Nat} {s : List Char} (neat : Neat indent {} s)
    (start : Indented indent 0 s) {above below : List (List Char)} {line : List Char}
    (cut : lines s = above ++ line :: below) :
    Indented indent (openBehind above) (unlines (line :: below)) := by
  have text : s = unlines (above ++ line :: below) := by rw [← cut, unlines_lines]
  by_cases first : above = []
  · subst first
    rw [text] at start
    exact start
  · rw [text, unlines_append first (by simp)] at neat
    exact neat.at_newline.2

theorem Indented.exists_line {indent depth : Nat} {line : List Char} {below : List (List Char)}
    (h : Indented indent depth (unlines (line :: below))) (single : '\n' ∉ line) :
    ∃ k c rest, line = List.replicate (indent * k) ' ' ++ c :: rest ∧ c ≠ ' ' ∧
      depth = k + outdent c := by
  obtain ⟨k, c, rest, text, space, newline, sum⟩ := h
  have spaces : ∀ d ∈ List.replicate (indent * k) ' ', (d != '\n') = true := by
    intro d mem
    rw [List.eq_of_mem_replicate mem]
    rfl
  refine ⟨k, c, rest.takeWhile (fun d => d != '\n'), ?_, space, sum⟩
  rw [← takeWhile_unlines_cons single below, text, List.takeWhile_append_of_pos spaces,
    List.takeWhile_cons_of_pos (by simpa using newline)]

theorem exists_renderFields (indent d : Nat) (first : Bool) {fields : List (String × Json)}
    (filled : first = false ∨ fields ≠ []) :
    ∃ s, renderFields indent d first fields = s ++ newline indent d := by
  induction fields generalizing first with
  | nil =>
    rcases filled with rfl | empty
    · exact ⟨[], by simp [renderFields]⟩
    · exact absurd rfl empty
  | cons field fields ih =>
    obtain ⟨s, ends⟩ := ih false (.inl rfl)
    rw [renderFields, ends, ← List.append_assoc]
    exact ⟨_, rfl⟩

/-- The outermost brace is closed on a line of its own, and nothing comes behind it. -/
theorem getLast?_lines_render (indent : Nat) {fields : List (String × Json)} (ne : fields ≠ []) :
    (lines (render indent 0 (.obj fields))).getLast? = some ['}'] := by
  obtain ⟨s, ends⟩ := exists_renderFields indent 0 true (.inr ne)
  have text : render indent 0 (.obj fields) = ('{' :: s) ++ '\n' :: ['}'] := by
    rw [render, ends]
    simp [newline]
  have brace : lines ['}'] = [['}']] := lines_of_not_mem (by decide)
  rw [text, lines_append_line, brace, List.getLast?_concat]

end ApiDocs.Json
