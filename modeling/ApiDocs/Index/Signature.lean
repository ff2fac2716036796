import ApiDocs.Api.Basic
import ApiDocs.Comment.Parse
import ApiDocs.Index.Rendering

/-! The signature of a method: return type, parameters, annotations, and the comment before it. -/

namespace ApiDocs.Index

def childOr (n : Node) (field : String) : Except Fault Node :=
  match n.childByField? field with
  | some c => .ok c
  | none => .error (.missing field n.kind)

def textOfField (source : Source) (n : Node) (field : String) : Except Fault String :=
  (childOr n field).map fun c => c.text source

def commentOf (source : Source) (p : Node.Placed) : Option Comment :=
  (p.precedingComment source).bind Comment.parse?

/-- The names that a declaration's type parameters bring into scope. -/
def typeParameters (source : Source) (n : Node) : List String :=
  match n.childByField? "type_parameters" with
  | none => []
  | some params =>
    (params.childrenOfKind ["type_parameter"]).filterMap fun p =>
      (p.childOfKind? ["type_identifier", "identifier"]).map fun name => name.text source

/-- Dimensions after the name belong to the type. -/
def withDimensions (source : Source) (r : TypeRef) : Option Node → TypeRef
  | none => r
  | some dims => ⟨.array, r.text ++ dimensionsText source dims, none⟩

def formalParameter (scope : Scope) (vars : List String) (n : Node) : Except Fault Param := do
  let type ← typeRef scope vars (← childOr n "type")
  let name ← textOfField scope.source n "name"
  return ⟨name, withDimensions scope.source type (n.childByField? "dimensions")⟩

/-- The first named child that can be the type of a parameter of variable arity. -/
def spreadType? (n : Node) : Option Node :=
  n.namedChildren.find? fun c =>
    !("modifiers" :: "variable_declarator" :: annotationKinds).contains c.kind

def spreadParameter (scope : Scope) (vars : List String) (n : Node) : Except Fault Param := do
  match spreadType? n with
  | none => .error (.untyped n.kind)
  | some typeNode =>
    let element ← typeRef scope vars typeNode
    match n.childOfKind? ["variable_declarator"] with
    | none => .error (.missing "variable_declarator" n.kind)
    | some declarator =>
      let name ← textOfField scope.source declarator "name"
      return ⟨name, ⟨.array, element.text ++ "...", none⟩⟩

/-- Comments and receivers are no parameters. -/
def parameter? (scope : Scope) (vars : List String) (n : Node) : Except Fault (Option Param) :=
  if n.kind = "formal_parameter" then (formalParameter scope vars n).map some
  else if n.kind = "spread_parameter" then (spreadParameter scope vars n).map some
  else .ok none

def parameters (scope : Scope) (vars : List String) (n : Node) : Except Fault (List Param) :=
  match n.childByField? "parameters" with
  | none => .ok []
  | some list => (list.namedChildren.mapM (parameter? scope vars)).map fun ps => ps.filterMap id

/-- A simple annotation name is resolved like a type name, a dotted one stays. -/
def annotationName (scope : Scope) (n : Node) : Except Fault String := do
  let name ← childOr n "name"
  let text := name.text scope.source
  return if name.kind = "identifier" then scope.resolve [] text else text

def annotations (scope : Scope) (n : Node) : Except Fault (List String) :=
  match n.childOfKind? ["modifiers"] with
  | none => .ok []
  | some modifiers => (modifiers.childrenOfKind annotationKinds).mapM (annotationName scope)

def method (scope : Scope) (vars : List String) (p : Node.Placed) : Except Fault Method := do
  let vars := typeParameters scope.source p.node ++ vars
  let returnType ← typeRef scope vars (← childOr p.node "type")
  let params ← parameters scope vars p.node
  let name ← textOfField scope.source p.node "name"
  let annotations ← annotations scope p.node
  return ⟨name, returnType, params, annotations, commentOf scope.source p⟩

end ApiDocs.Index
