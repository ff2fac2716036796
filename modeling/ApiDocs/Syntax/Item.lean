import ApiDocs.Syntax.Token

/-! Tokens grouped by their brackets: a bracketed group is one item of what surrounds it. -/

namespace ApiDocs.Syntax

inductive Item where
  | leaf (token : Token)
  | group (opening : Token) (items : List Item) (closing : Token)

namespace Item

def opens (t : Token) : Bool := ["(", "[", "\x7b"].contains t.text

def closes (t : Token) : Bool := [")", "]", "\x7d"].contains t.text

/-- The groups that are still open, each with the items before it, the nearest first. -/
abbrev Pending := List (Token × List Item)

/-- A group that the text does not close ends where its last item does. -/
def closeAll (current : List Item) : Pending → List Item
  | [] => current.reverse
  | (opening, before) :: rest => closeAll (.group opening current.reverse opening :: before) rest

def groupFrom (pending : Pending) (current : List Item) : List Token → List Item
  | [] => closeAll current pending
  | t :: rest =>
    if t.kind ≠ .symbol then groupFrom pending (.leaf t :: current) rest
    else if opens t then groupFrom ((t, current) :: pending) [] rest
    else if closes t then
      match pending with
      | [] => groupFrom [] (.leaf t :: current) rest
      | (opening, before) :: outer =>
        groupFrom outer (.group opening current.reverse t :: before) rest
    else groupFrom pending (.leaf t :: current) rest

def ofTokens (l : List Token) : List Item := groupFrom [] [] l

/-- The text of the token, or of the opening bracket. -/
def head : Item → String
  | leaf t => t.text
  | group opening .. => opening.text

def isWord : Item → Bool
  | leaf t => t.kind = .word
  | group .. => false

def isGroup (opening : String) : Item → Bool
  | leaf _ => false
  | group t .. => t.text = opening

def start : Item → Nat
  | leaf t => t.start
  | group opening .. => opening.start

def stop : Item → Nat
  | leaf t => t.stop
  | group _ _ closing => closing.stop

end Item

end ApiDocs.Syntax
