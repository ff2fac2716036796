/-! Tokens of a source text. Comments are tokens too; blanks only separate. Longest matches are
taken from the front, and each lexeme has at least one character. -/

namespace ApiDocs.Syntax

inductive TokenKind where
  | blank
  | word
  | literal
  | symbol
  | lineComment
  | blockComment
deriving DecidableEq, Repr

structure Token where
  kind : TokenKind
  text : String
  start : Nat
  stop : Nat
deriving DecidableEq, Repr

/-- Only ASCII space characters separate tokens. -/
def isSpace (c : Char) : Bool := c == ' ' || (9 ≤ c.toNat && c.toNat ≤ 13)

def isNameStart (c : Char) : Bool := c.isAlpha || c == '_' || c == '$' || 0x80 ≤ c.toNat

def isNameChar (c : Char) : Bool := isNameStart c || c.isDigit

/-- Characters through the end of a block comment. -/
def blockLength : List Char → Nat
  | [] => 0
  | '*' :: '/' :: _ => 2
  | _ :: r => blockLength r + 1

/-- Characters through the closing quote, where a backslash takes the next character with it. -/
def quotedLength (quote : List Char) : List Char → Nat
  | [] => 0
  | '\\' :: _ :: r => quotedLength quote r + 2
  | c :: r => if quote.isPrefixOf (c :: r) then quote.length else quotedLength quote r + 1

def nameLength (r : List Char) : Nat := (r.takeWhile isNameChar).length

/-- Whether the text starts with this word and no longer one. -/
def startsWithWord (word r : List Char) : Bool :=
  word.isPrefixOf r && !((r.drop word.length).head?.any isNameChar)

def sealedMark : List Char := "-sealed".toList

def interfaceWord : List Char := "interface".toList

def textBlockQuote : List Char := ['"', '"', '"']

def wordLength (c : Char) (r : List Char) : Nat :=
  let n := nameLength r
  if c :: r.take n = "non".toList ∧ startsWithWord sealedMark (r.drop n) then
    n + sealedMark.length
  else n

def symbolLength (c : Char) (r : List Char) : Nat :=
  if c = '@' ∧ startsWithWord interfaceWord r then interfaceWord.length
  else if c = '.' ∧ ['.', '.'].isPrefixOf r then 2
  else 0

/-- The kind of the lexeme that starts with `c`, and how many more characters belong to it. -/
def lexeme (c : Char) (r : List Char) : TokenKind × Nat :=
  if isSpace c then (.blank, 0)
  else if c = '/' ∧ r.head? = some '/' then
    (.lineComment, (r.takeWhile fun d => d != '\n').length)
  else if c = '/' ∧ r.head? = some '*' then (.blockComment, blockLength (r.drop 1) + 1)
  else if c = '"' ∧ ['"', '"'].isPrefixOf r then
    (.literal, quotedLength textBlockQuote (r.drop 2) + 2)
  else if c = '"' ∨ c = '\'' then (.literal, quotedLength [c] r)
  else if isNameStart c then (.word, wordLength c r)
  else if c.isDigit then (.literal, nameLength r)
  else (.symbol, symbolLength c r)

def byteLength : List Char → Nat
  | [] => 0
  | c :: r => c.utf8Size + byteLength r

def tokensFrom (offset : Nat) : List Char → List Token
  | [] => []
  | c :: r =>
    let (kind, n) := lexeme c r
    let text := c :: r.take n
    let stop := offset + byteLength text
    ⟨kind, String.ofList text, offset, stop⟩ :: tokensFrom stop (r.drop n)
termination_by s => s.length
decreasing_by rw [List.length_drop, List.length_cons]; omega

/-- A byte order mark at the front is no part of the text. -/
def tokens (text : String) : List Token :=
  let all := match text.toList with
    | '\uFEFF' :: r => tokensFrom 3 r
    | s => tokensFrom 0 s
  all.filter fun t => t.kind ≠ .blank

def Token.isComment (t : Token) : Bool := t.kind = .lineComment || t.kind = .blockComment

end ApiDocs.Syntax
