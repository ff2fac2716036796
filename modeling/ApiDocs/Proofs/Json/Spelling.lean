import ApiDocs.Json.Layout
import ApiDocs.Json.Token
import Mathlib.Tactic.SplitIfs

/-! The tokens of a rendered value. No token runs over the end of a value, of a key or of the white
space between them, so each part of the text can be scanned without the rest. -/

namespace ApiDocs.Json

open Text

/-! ## The tokens of a value -/

mutual

def tokens : Json → List Token
  | .str s => [.str s]
  | .word w => [.word w]
  | .arr items => .leftBracket :: itemTokens true items ++ [.rightBracket]
  | .obj fields => .leftBrace :: fieldTokens true fields ++ [.rightBrace]

def itemTokens (first : Bool) : List Json → List Token
  | [] => []
  | v :: rest => (if first then [] else [.comma]) ++ tokens v ++ itemTokens false rest

def fieldTokens (first : Bool) : List (String × Json) → List Token
  | [] => []
  | (key, v) :: rest =>
    (if first then [] else [.comma]) ++ [.str key, .colon] ++ tokens v ++ fieldTokens false rest

end

/-! ## Characters of a string -/

theorem hexDigit?_digitChar {d : Nat} (h : d < 16) : hexDigit? (Nat.digitChar d) = some d := by
  have all : ∀ d < 16, hexDigit? (Nat.digitChar d) = some d := by decide
  exact all d h

theorem hex_control {n : Nat} (h : n < 0x20) :
    hex 4 n = ['0', '0', Nat.digitChar (n / 16), Nat.digitChar (n % 16)] := by
  have all : ∀ n < 0x20, hex 4 n = ['0', '0', Nat.digitChar (n / 16), Nat.digitChar (n % 16)] := by
    decide
  exact all n h

private theorem tokensFrom_string_cons (read : List Char) (c : Char) (rest : List Char) {m : Mode}
    (h : step (.string read) c = some ([], m)) :
    tokensFrom (.string read) (c :: rest) = tokensFrom m rest := by
  simp [tokensFrom, h]

private theorem tokensFrom_escape (read : List Char) {c d : Char} (rest : List Char)
    (hu : c ≠ 'u') (h : unescape? c = some d) :
    tokensFrom (.string read) ('\\' :: c :: rest) = tokensFrom (.string (read ++ [d])) rest := by
  simp [tokensFrom, step, hu, h]

private theorem tokensFrom_control (read : List Char) {c : Char} (rest : List Char)
    (h : c.toNat < 0x20) :
    tokensFrom (.string read) ('\\' :: 'u' :: hex 4 c.toNat ++ rest) =
      tokensFrom (.string (read ++ [c])) rest := by
  have high : hexDigit? (Nat.digitChar (c.toNat / 16)) = some (c.toNat / 16) :=
    hexDigit?_digitChar (by omega)
  have low : hexDigit? (Nat.digitChar (c.toNat % 16)) = some (c.toNat % 16) :=
    hexDigit?_digitChar (by omega)
  have zero : hexDigit? '0' = some 0 := rfl
  have bits : c.toNat / 16 * 16 + c.toNat % 16 = c.toNat := by omega
  have unit : codeUnit read none c.toNat = some (.string (read ++ [c])) := by
    simp only [codeUnit]
    rw [if_neg (by omega), if_neg (by omega), Char.ofNat_toNat]
  rw [hex_control h]
  simp [tokensFrom, step, high, low, zero, bits, unit]

theorem tokensFrom_escapeChar (read : List Char) (c : Char) (rest : List Char) :
    tokensFrom (.string read) (escapeChar c ++ rest) =
      tokensFrom (.string (read ++ [c])) rest := by
  unfold escapeChar
  split_ifs with quoted line ret tab back feed control
  · rcases quoted with rfl | rfl
    · exact tokensFrom_escape read rest (by decide) rfl
    · exact tokensFrom_escape read rest (by decide) rfl
  · subst line
    exact tokensFrom_escape read rest (by decide) rfl
  · subst ret
    exact tokensFrom_escape read rest (by decide) rfl
  · subst tab
    exact tokensFrom_escape read rest (by decide) rfl
  · have hc : Char.ofNat 0x08 = c := by rw [← back, Char.ofNat_toNat]
    subst hc
    exact tokensFrom_escape read rest (by decide) rfl
  · have hc : Char.ofNat 0x0C = c := by rw [← feed, Char.ofNat_toNat]
    subst hc
    exact tokensFrom_escape read rest (by decide) rfl
  · exact tokensFrom_control read rest control
  · obtain ⟨noQuote, noBackslash⟩ := not_or.mp quoted
    exact tokensFrom_string_cons read c rest (by
      simp [step, noQuote, noBackslash, control])

theorem tokensFrom_escaped (read chars rest : List Char) :
    tokensFrom (.string read) (chars.flatMap escapeChar ++ rest) =
      tokensFrom (.string (read ++ chars)) rest := by
  induction chars generalizing read with
  | nil => simp
  | cons c chars ih =>
    rw [List.flatMap_cons, List.append_assoc, tokensFrom_escapeChar, ih, List.append_assoc]
    rfl

/-! ## Parts of the text -/

/-- Between tokens a text gives these tokens, whatever follows it. -/
def Spells (l : List Char) (ts : List Token) : Prop :=
  ∀ rest, tokensFrom .between (l ++ rest) = (tokensFrom .between rest).map (ts ++ ·)

namespace Spells

theorem nil : Spells [] [] := by
  intro rest
  simp

theorem append {l m : List Char} {s t : List Token} (hl : Spells l s) (hm : Spells m t) :
    Spells (l ++ m) (s ++ t) := by
  intro rest
  rw [List.append_assoc, hl, hm, Option.map_map]
  congr 1
  funext more
  exact (List.append_assoc s t more).symm

theorem single {c : Char} {ts : List Token} (h : between c = some (ts, .between)) :
    Spells [c] ts := by
  intro rest
  cases tail : tokensFrom .between rest with
  | none => simp [tokensFrom, step, h, tail]
  | some more => simp [tokensFrom, step, h, tail]

theorem spaces (n : Nat) : Spells (List.replicate n ' ') [] := by
  induction n with
  | zero => exact nil
  | succ n ih => exact append (l := [' ']) (s := []) (single rfl) ih

theorem newline (indent depth : Nat) : Spells (Json.newline indent depth) [] :=
  append (l := ['\n']) (s := []) (single rfl) (spaces _)

theorem literal (s : String) : Spells (Json.literal s) [.str s] := by
  intro rest
  have opened : tokensFrom .between (Json.literal s ++ rest) =
      tokensFrom (.string []) (s.toList.flatMap escapeChar ++ '"' :: rest) := by
    simp [Json.literal, tokensFrom, step, between, isSpace]
  rw [opened, tokensFrom_escaped, List.nil_append]
  cases tail : tokensFrom .between rest with
  | none => simp [tokensFrom, step, tail]
  | some more => simp [tokensFrom, step, tail, String.ofList_toList]

/-- The comma before every item but the first. -/
theorem comma (first : Bool) :
    Spells (if first then [] else [',']) (if first then [] else [.comma]) := by
  cases first with
  | true => exact nil
  | false => exact single rfl

theorem colon : Spells [':', ' '] [.colon] :=
  append (l := [':']) (s := [.colon]) (single rfl) (single rfl)

end Spells

mutual

theorem spells_render (indent depth : Nat) :
    ∀ v : Json, v.plain = true → Spells (render indent depth v) v.tokens
  | .str s, _ => by
    simpa only [render, tokens] using Spells.literal s
  | .word _, h => by
    simp [plain] at h
  | .arr items, h => by
    have inner := spells_renderItems indent depth true items (by simpa [plain] using h)
    have opened : Spells ['['] [.leftBracket] := Spells.single rfl
    have closed : Spells [']'] [.rightBracket] := Spells.single rfl
    simpa only [render, tokens, List.cons_append, List.nil_append] using
      (opened.append inner).append closed
  | .obj fields, h => by
    have inner := spells_renderFields indent depth true fields (by simpa [plain] using h)
    have opened : Spells ['{'] [.leftBrace] := Spells.single rfl
    have closed : Spells ['}'] [.rightBrace] := Spells.single rfl
    simpa only [render, tokens, List.cons_append, List.nil_append] using
      (opened.append inner).append closed

theorem spells_renderItems (indent depth : Nat) (first : Bool) :
    ∀ items : List Json, allPlain items = true →
      Spells (renderItems indent depth first items) (itemTokens first items)
  | [], _ => by
    cases first with
    | true => simpa [renderItems, itemTokens] using Spells.nil
    | false => simpa [renderItems, itemTokens] using Spells.newline indent depth
  | v :: rest, h => by
    obtain ⟨hv, hrest⟩ : v.plain = true ∧ allPlain rest = true := by simpa [allPlain] using h
    have value := spells_render indent (depth + 1) v hv
    have others := spells_renderItems indent depth false rest hrest
    have start := (Spells.comma first).append (Spells.newline indent (depth + 1))
    simpa only [renderItems, itemTokens, List.append_nil] using (start.append value).append others

theorem spells_renderFields (indent depth : Nat) (first : Bool) :
    ∀ fields : List (String × Json), allFieldsPlain fields = true →
      Spells (renderFields indent depth first fields) (fieldTokens first fields)
  | [], _ => by
    cases first with
    | true => simpa [renderFields, fieldTokens] using Spells.nil
    | false => simpa [renderFields, fieldTokens] using Spells.newline indent depth
  | (key, v) :: rest, h => by
    obtain ⟨hv, hrest⟩ : v.plain = true ∧ allFieldsPlain rest = true := by
      simpa [allFieldsPlain] using h
    have value := spells_render indent (depth + 1) v hv
    have others := spells_renderFields indent depth false rest hrest
    have start := (Spells.comma first).append (Spells.newline indent (depth + 1))
    have named := (start.append (Spells.literal key)).append Spells.colon
    simpa only [renderFields, fieldTokens, List.append_nil, List.append_assoc, List.cons_append,
      List.nil_append] using (named.append value).append others

end

theorem tokensFrom_render {v : Json} (h : v.plain = true) (indent : Nat) :
    tokensFrom .between (render indent 0 v) = some v.tokens := by
  simpa [tokensFrom, Mode.finish] using spells_render indent 0 v h []

end ApiDocs.Json
