import ApiDocs.Text.Utf8

/-! Source texts and syntax trees. A node covers a span of bytes and may be known to its parent by a
field name; keywords and punctuation are nodes without a name of their own. -/

namespace ApiDocs

open Text

/-- The bytes of a source text, addressed by offset. -/
structure Source where
  bytes : Array UInt8

namespace Source

def ofText (text : String) : Source := ⟨(Utf8.encode text.toList).toArray⟩

/-- The text between two offsets, as far as the source reaches; empty if they are out of order. -/
def slice (s : Source) (start stop : Nat) : String :=
  String.ofList (Utf8.decode (s.bytes.extract start stop).toList)

/-- Line feeds before an offset. -/
def row (s : Source) (offset : Nat) : Nat := (s.bytes.extract 0 offset).count 10

end Source

inductive Node where
  | mk (kind : String) (start stop : Nat) (named : Bool) (field : Option String)
    (children : List Node)
deriving Inhabited

namespace Node

def kind : Node → String
  | mk kind .. => kind

def start : Node → Nat
  | mk _ start .. => start

def stop : Node → Nat
  | mk _ _ stop .. => stop

def named : Node → Bool
  | mk _ _ _ named .. => named

def field : Node → Option String
  | mk _ _ _ _ field _ => field

def children : Node → List Node
  | mk _ _ _ _ _ children => children

def namedChildren (n : Node) : List Node := n.children.filter named

/-- The first child of one of the kinds. -/
def childOfKind? (n : Node) (kinds : List String) : Option Node :=
  n.children.find? fun c => kinds.contains c.kind

def childrenOfKind (n : Node) (kinds : List String) : List Node :=
  n.children.filter fun c => kinds.contains c.kind

def childByField? (n : Node) (field : String) : Option Node :=
  n.children.find? fun c => c.field = some field

def text (n : Node) (s : Source) : String := s.slice n.start n.stop

def isComment (n : Node) : Bool :=
  ["block_comment", "line_comment", "comment"].contains n.kind

/-- A node with the siblings before it, the nearest first. -/
structure Placed where
  node : Node
  above : List Node

def placedFrom (above : List Node) : List Node → List Placed
  | [] => []
  | n :: rest => ⟨n, above⟩ :: placedFrom (n :: above) rest

def placedChildren (n : Node) : List Placed := placedFrom [] n.children

/-- The nearest block comment that only comments separate from what follows; siblings come with the
nearest first. -/
def nearestBlockComment (s : Source) : List Node → Option String
  | [] => none
  | n :: above =>
    if n.isComment then
      let raw := n.text s
      if ['/', '*'].isPrefixOf raw.toList then some raw else nearestBlockComment s above
    else none

def Placed.precedingComment (p : Placed) (s : Source) : Option String :=
  nearestBlockComment s p.above

theorem placedFrom_map_node (above l : List Node) : (placedFrom above l).map Placed.node = l := by
  induction l generalizing above with
  | nil => rfl
  | cons n rest ih => simp [placedFrom, ih]

theorem placedChildren_map_node (n : Node) : n.placedChildren.map Placed.node = n.children :=
  placedFrom_map_node [] n.children

theorem mem_children_of_mem_placed {n : Node} {p : Placed} (h : p ∈ n.placedChildren) :
    p.node ∈ n.children := by
  rw [← placedChildren_map_node]
  exact List.mem_map_of_mem h

theorem sizeOf_lt_of_mem_children {n c : Node} (h : c ∈ n.children) : sizeOf c < sizeOf n := by
  cases n with
  | mk kind start stop named field children =>
    have := List.sizeOf_lt_of_mem h
    simp only [Node.children] at this
    simp only [Node.mk.sizeOf_spec]
    omega

theorem mem_children_of_childByField {n c : Node} {f : String}
    (h : n.childByField? f = some c) : c ∈ n.children :=
  List.mem_of_find?_eq_some h

end Node

end ApiDocs
