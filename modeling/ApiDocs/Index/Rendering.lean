import ApiDocs.Api.TypeRef
import ApiDocs.Index.Scope

/-! The text of a type: qualified names, type arguments with a comma and no blank between them, no
annotations. A node's text is assembled from the texts of its children. -/

namespace ApiDocs.Index

open Text

/-- Why a source unit cannot be indexed: its tree lacks a node that the declaration needs. -/
inductive Fault where
  | missing (part : String) (kind : String)
  /-- No named child, where one is needed. -/
  | childless (kind : String)
  /-- A parameter of variable arity without a type. -/
  | untyped (kind : String)
deriving DecidableEq, Repr

def Fault.message : Fault → String
  | missing part kind => s!"{kind} without {part}"
  | childless kind => s!"{kind} without content"
  | untyped kind => s!"{kind} without type"

def annotationKinds : List String := ["marker_annotation", "annotation"]

/-- A child with its text. -/
structure Part where
  node : Node
  text : Except Fault String

def dotted (l : List (List Char)) : String := String.ofList (['.'].intercalate l)

/-- The first part of the name is resolved, the others stay. -/
def resolveScoped (scope : Scope) (vars : List String) (name : String) : String :=
  match (withoutBlanks name.toList).splitOn '.' with
  | [] => scope.resolve vars ""
  | head :: rest => dotted ((scope.resolve vars (String.ofList head)).toList :: rest)

def namedParts (parts : List Part) : List Part := parts.filter fun p => p.node.named

def textOr (fault : Fault) : Option Part → Except Fault String
  | none => .error fault
  | some p => p.text

def genericText (parts : List Part) : Except Fault String := do
  let args ← match parts.find? fun p => p.node.kind = "type_arguments" with
    | none => pure ""
    | some p => p.text
  let base ← textOr (.childless "generic_type") (namedParts parts).head?
  return base ++ args

def argumentsText (parts : List Part) : Except Fault String := do
  let texts ← (namedParts parts).mapM Part.text
  return "<" ++ ",".intercalate texts ++ ">"

def dimensionsText (source : Source) (n : Node) : String := compacted (n.text source)

def arrayText (source : Source) (n : Node) (parts : List Part) : Except Fault String := do
  let element ← textOr (.missing "element" "array_type")
    (parts.find? fun p => p.node.field = some "element")
  return element ++ ((n.childByField? "dimensions").map (dimensionsText source)).getD "[]"

def wildcardText (n : Node) (parts : List Part) : Except Fault String := do
  let bounds := (namedParts parts).filter fun p =>
    !annotationKinds.contains p.node.kind && p.node.kind != "super"
  match bounds.getLast? with
  | none => return "?"
  | some bound =>
    let keyword := if (n.childOfKind? ["super"]).isSome then "super" else "extends"
    return "? " ++ keyword ++ " " ++ (← bound.text)

def assemble (scope : Scope) (vars : List String) (n : Node) (parts : List Part) :
    Except Fault String :=
  match n.kind with
  | "type_identifier" => .ok (scope.resolve vars (n.text scope.source))
  | "scoped_type_identifier" => .ok (resolveScoped scope vars (n.text scope.source))
  | "generic_type" => genericText parts
  | "type_arguments" => argumentsText parts
  | "array_type" => arrayText scope.source n parts
  | "wildcard" => wildcardText n parts
  | "annotated_type" => textOr (.childless "annotated_type") (namedParts parts).getLast?
  | _ => .ok (collapsed (n.text scope.source))

mutual

def render (scope : Scope) (vars : List String) : Node → Except Fault String
  | .mk kind start stop named field children =>
    assemble scope vars (.mk kind start stop named field children) (partsOf scope vars children)

def partsOf (scope : Scope) (vars : List String) : List Node → List Part
  | [] => []
  | n :: rest => ⟨n, render scope vars n⟩ :: partsOf scope vars rest

end

/-- The annotated type itself, one level down. -/
def unannotated (n : Node) : Node :=
  if n.kind = "annotated_type" then n.namedChildren.getLast?.getD n else n

def primitiveKinds : List String := ["integral_type", "floating_point_type", "boolean_type"]

/-- How a type that renders as `text` is classified. -/
def classify (scope : Scope) (vars : List String) (text : String) (n : Node) :
    Except Fault TypeRef :=
  if n.kind = "void_type" then .ok ⟨.void, text, none⟩
  else if primitiveKinds.contains n.kind then .ok ⟨.primitive, text, none⟩
  else if n.kind = "array_type" then .ok ⟨.array, text, none⟩
  else if n.kind = "type_identifier" ∧ vars.contains (n.text scope.source) then
    .ok ⟨.typeVar, text, none⟩
  else if n.kind = "generic_type" then
    match n.namedChildren.head? with
    | none => .error (.childless "generic_type")
    | some base => (render scope vars base).map fun name => ⟨.declared, text, some name⟩
  else if n.kind = "type_identifier" ∨ n.kind = "scoped_type_identifier" then
    .ok ⟨.declared, text, some text⟩
  else .ok ⟨.malformed, text, none⟩

def typeRef (scope : Scope) (vars : List String) (n : Node) : Except Fault TypeRef := do
  let text ← render scope vars n
  classify scope vars text (unannotated n)

theorem partsOf_eq_map (scope : Scope) (vars : List String) (l : List Node) :
    partsOf scope vars l = l.map fun n => ⟨n, render scope vars n⟩ := by
  induction l with
  | nil => rfl
  | cons n rest ih => simp [partsOf, ih]

theorem render_eq (scope : Scope) (vars : List String) (n : Node) :
    render scope vars n =
      assemble scope vars n (n.children.map fun c => ⟨c, render scope vars c⟩) := by
  cases n
  simp [render, partsOf_eq_map, Node.children]

end ApiDocs.Index
