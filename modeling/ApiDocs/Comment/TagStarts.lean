import ApiDocs.Comment.Segments
import ApiDocs.Text.CharClass

/-! Where block tags start: at an at sign outside of inline tags, with a blank or nothing before
it and a tag name after it. A well-known tag may stand anywhere on a line, any other only where
nothing but blanks precedes it. -/

namespace ApiDocs.Comment

open Text

structure TagStart where
  offset : Nat
  name : List Char
deriving DecidableEq, Repr

def knownTags : List String :=
  ["param", "return", "throws", "exception", "see", "since", "author", "version",
   "deprecated", "serial", "serialData", "serialField", "hidden", "apiNote",
   "implSpec", "implNote", "provides", "uses"]

def isKnownTag (name : List Char) : Bool := knownTags.contains (String.ofList name)

def isTagNameChar (c : Char) : Bool := isWordChar c || c == '.' || c == '-'

/-- The longest tag name at the front: a Latin letter, then name characters. -/
def tagName? : List Char → Option (List Char)
  | [] => none
  | c :: r => if c.isAlpha then some (c :: r.takeWhile isTagNameChar) else none

/-- What the text before a position decides about an at sign there. -/
structure Cursor where
  offset : Nat := 0
  depth : Nat := 0
  afterBlank : Bool := true
  lineBlank : Bool := true

def Cursor.next (k : Cursor) (c : Char) (rest : List Char) : Cursor where
  offset := k.offset + 1
  depth := nextDepth k.depth c rest
  afterBlank := isBlank c
  lineBlank := c == '\n' || (k.lineBlank && isBlank c)

/-- The block tag at `c`, if one starts there. -/
def startAt (k : Cursor) (c : Char) (rest : List Char) : Option TagStart :=
  if c = '@' ∧ k.depth = 0 ∧ k.afterBlank then
    (tagName? rest).bind fun name =>
      if k.lineBlank || isKnownTag name then some ⟨k.offset, name⟩ else none
  else none

def startsFrom (k : Cursor) : List Char → List TagStart
  | [] => []
  | c :: r => (startAt k c r).toList ++ startsFrom (k.next c r) r

def tagStarts (text : List Char) : List TagStart := startsFrom {} text

end ApiDocs.Comment
