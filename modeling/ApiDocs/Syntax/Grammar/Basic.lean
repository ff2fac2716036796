import ApiDocs.Syntax.Item
import ApiDocs.Syntax.Node

/-! Reading nodes from items. A reader takes what it can from the front and gives the nodes it
made, none where its construct does not start. -/

namespace ApiDocs.Syntax

def Token.node (t : Token) (kind : String) (named : Bool) : Node :=
  .mk kind t.start t.stop named none []

/-- A token that is known by its own text. -/
def Token.plain (t : Token) : Node := t.node t.text false

/-- An item of which only the span matters. -/
def Item.node (i : Item) (kind : String) : Node := .mk kind i.start i.stop true none []

def Item.plain : Item → Node
  | .leaf t => t.plain
  | .group opening items closing => (Item.group opening items closing).node opening.text

/-- A named node that spans its children. -/
def spanning (kind : String) (children : List Node) : Node :=
  .mk kind ((children.head?.map Node.start).getD 0) ((children.getLast?.map Node.stop).getD 0)
    true none children

/-- One node over the children, if there are any. -/
def wrapped (kind : String) (children : List Node) : List Node :=
  if children.isEmpty then [] else [spanning kind children]

def as (field : String) (l : List Node) : List Node :=
  l.map fun n => .mk n.kind n.start n.stop n.named (some field) n.children

namespace Grammar

abbrev Reader (α : Type) := StateM (List Item) α

abbrev Nodes := Reader (List Node)

/-- Whether the next items are as the tests say. -/
def next (tests : List (Item → Bool)) : Reader Bool := do
  let items ← get
  return tests.length ≤ items.length && (tests.zip items).all fun p => p.1 p.2

def is (text : String) (i : Item) : Bool := i.head = text

def oneOf (texts : List String) (i : Item) : Bool := i.isWord && texts.contains i.head

/-- The next item as a node, if it passes the test. -/
def take (test : Item → Bool) (node : Item → Node) : Nodes := do
  match ← get with
  | [] => return []
  | i :: rest =>
    if test i then
      set rest
      return [node i]
    else return []

def token (text : String) : Nodes := take (is text) Item.plain

def keyword (text : String) : Nodes := take (oneOf [text]) Item.plain

def name (kind : String) : Nodes := take Item.isWord fun i => i.node kind

def group (opening kind : String) : Nodes := take (Item.isGroup opening) fun i => i.node kind

def manyFrom (reader : Nodes) : Nat → Nodes
  | 0 => return []
  | n + 1 => do
    let nodes ← reader
    if nodes.isEmpty then return []
    return nodes ++ (← manyFrom reader n)

/-- As often as it finds something; each time takes an item, so the number of items bounds it. -/
def many (reader : Nodes) : Nodes := do manyFrom reader (← get).length

/-- What the first reader finds, and the second only after that. -/
def andThen (first second : Nodes) : Nodes := do
  let nodes ← first
  if nodes.isEmpty then return []
  return nodes ++ (← second)

/-- One or more, with a separator between them. -/
def separated (separator : String) (reader : Nodes) : Nodes :=
  andThen reader (many (andThen (token separator) reader))

/-- The readers in a row. -/
def sequence (readers : List Nodes) : Nodes := do
  return (← readers.mapM id).flatten

/-- The brackets of the next group, and between them what a reader makes of its items. -/
def inside (opening kind : String) (reader : List Item → List Node) : Nodes := do
  match ← get with
  | .group o items c :: rest =>
    if o.text = opening then
      set rest
      return [spanning kind (o.plain :: reader items ++ [c.plain])]
    else return []
  | _ => return []

/-- All items up to one that passes the test, and that one. -/
def through (test : Item → Bool) : Nodes := do
  let items ← get
  let before := items.takeWhile fun i => !test i
  let rest := items.dropWhile fun i => !test i
  set (rest.drop 1)
  return (before ++ rest.take 1).map Item.plain

end Grammar

end ApiDocs.Syntax
