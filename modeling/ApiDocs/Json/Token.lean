/-! The tokens of a JSON text. White space may stand between tokens; in a string every character
from the space on stands for itself, but for the quote that ends it and the backslash, which starts
an escape. -/

namespace ApiDocs.Json

inductive Token where
  | leftBracket
  | rightBracket
  | leftBrace
  | rightBrace
  | colon
  | comma
  | str (value : String)
  | word (spelling : String)
deriving DecidableEq, Repr

/-! ## Words -/

def isSign (c : Char) : Bool := c == '+' || c == '-'

def isWordChar (c : Char) : Bool := c.isAlphanum || isSign c || c == '.'

def someDigits (s : List Char) : Bool := !s.isEmpty && s.all Char.isDigit

/-- Nothing, or an exponent with or without a sign. -/
def isExponent : List Char → Bool
  | [] => true
  | c :: r =>
    (c == 'e' || c == 'E') && someDigits (if r.head?.any isSign then r.tail else r)

def isFraction : List Char → Bool
  | '.' :: r => someDigits (r.takeWhile Char.isDigit) && isExponent (r.dropWhile Char.isDigit)
  | r => isExponent r

/-- A number has no zero in front of its other digits, and no plus sign. -/
def isNumber (w : List Char) : Bool :=
  let unsigned := if w.head? = some '-' then w.tail else w
  let whole := unsigned.takeWhile Char.isDigit
  (whole == ['0'] || (someDigits whole && whole.head? != some '0')) &&
    isFraction (unsigned.dropWhile Char.isDigit)

def word? (w : List Char) : Option Token :=
  if ["true", "false", "null"].contains (String.ofList w) || isNumber w then
    some (.word (String.ofList w))
  else none

/-! ## Escapes -/

def unescape? : Char → Option Char
  | '"' => some '"'
  | '\\' => some '\\'
  | '/' => some '/'
  | 'b' => some (Char.ofNat 0x08)
  | 'f' => some (Char.ofNat 0x0C)
  | 'n' => some '\n'
  | 'r' => some '\r'
  | 't' => some '\t'
  | _ => none

def hexDigit? (c : Char) : Option Nat :=
  if '0' ≤ c ∧ c ≤ '9' then some (c.toNat - 48)
  else if 'a' ≤ c ∧ c ≤ 'f' then some (c.toNat - 87)
  else if 'A' ≤ c ∧ c ≤ 'F' then some (c.toNat - 55)
  else none

/-! ## The scanner -/

/-- What the text before a position is in the middle of. Strings and words come with the part that
was read, a code unit with the digits it still needs and the first half of a pair before it. -/
inductive Mode where
  | between
  | word (read : List Char)
  | string (read : List Char)
  | escape (read : List Char)
  | unicode (read : List Char) (high : Option Nat) (owed : Nat) (bits : Nat)
  | pair (read : List Char) (high : Nat)
  | pairEscape (read : List Char) (high : Nat)

/-- After the digits of a code unit. Half a pair alone is no character. -/
def codeUnit (read : List Char) (high : Option Nat) (bits : Nat) : Option Mode :=
  match high with
  | none =>
    if 0xD800 ≤ bits ∧ bits ≤ 0xDBFF then some (.pair read bits)
    else if 0xDC00 ≤ bits ∧ bits ≤ 0xDFFF then none
    else some (.string (read ++ [Char.ofNat bits]))
  | some high =>
    if 0xDC00 ≤ bits ∧ bits ≤ 0xDFFF then
      some (.string (read ++
        [Char.ofNat (0x10000 + (high - 0xD800) * 0x400 + (bits - 0xDC00))]))
    else none

def punctuation? : Char → Option Token
  | '[' => some .leftBracket
  | ']' => some .rightBracket
  | '\x7b' => some .leftBrace
  | '\x7d' => some .rightBrace
  | ':' => some .colon
  | ',' => some .comma
  | _ => none

def isSpace (c : Char) : Bool := c == ' ' || c == '\n' || c == '\r' || c == '\t'

def between (c : Char) : Option (List Token × Mode) :=
  if isSpace c then some ([], .between)
  else if c = '"' then some ([], .string [])
  else if isWordChar c then some ([], .word [c])
  else (punctuation? c).map fun t => ([t], .between)

/-- The tokens that end at a character, and what the text is in the middle of after it. -/
def step : Mode → Char → Option (List Token × Mode)
  | .between, c => between c
  | .word w, c =>
    if isWordChar c then some ([], .word (w ++ [c]))
    else do
      let token ← word? w
      let (tokens, mode) ← between c
      return (token :: tokens, mode)
  | .string s, c =>
    if c = '"' then some ([.str (String.ofList s)], .between)
    else if c = '\\' then some ([], .escape s)
    else if c.toNat < 0x20 then none
    else some ([], .string (s ++ [c]))
  | .escape s, c =>
    if c = 'u' then some ([], .unicode s none 4 0)
    else (unescape? c).map fun d => ([], .string (s ++ [d]))
  | .unicode s high owed bits, c => do
    let digit ← hexDigit? c
    if owed ≤ 1 then
      let mode ← codeUnit s high (bits * 16 + digit)
      return ([], mode)
    else return ([], .unicode s high (owed - 1) (bits * 16 + digit))
  | .pair s high, c => if c = '\\' then some ([], .pairEscape s high) else none
  | .pairEscape s high, c => if c = 'u' then some ([], .unicode s (some high) 4 0) else none

/-- A text may end between tokens, and with a word. -/
def Mode.finish : Mode → Option (List Token)
  | .between => some []
  | .word w => (word? w).map fun t => [t]
  | _ => none

def tokensFrom (m : Mode) : List Char → Option (List Token)
  | [] => m.finish
  | c :: r => do
    let (tokens, next) ← step m c
    let rest ← tokensFrom next r
    return tokens ++ rest

end ApiDocs.Json
