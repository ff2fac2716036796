import ApiDocs.Index.Outline
import ApiDocs.Progress

/-! What a source unit adds to an index, whatever the index holds already: its package, its types
in preorder up to the first fault, and that fault. -/

namespace ApiDocs.Index

open Node

/-- A source text with its syntax tree, and the path it was read from. -/
structure SourceUnit where
  source : Source
  path : Option String
  tree : Node

structure Contribution where
  package : Option Package := none
  /-- Each with the line it starts on. -/
  types : List (Nat × TypeDecl) := []
  fault : Option Fault := none

/-- The last component of a path. -/
def fileName (path : String) : String :=
  String.ofList ((path.toList.splitOn '/').getLastD [])

/-- Any unit can name its package, but only one of this file name documents it. -/
def documentsPackage (path : Option String) : Bool :=
  path.any fun p => fileName p = "package-info.java"

def packageOf (u : SourceUnit) : Except Fault (Option Package) :=
  match u.tree.placedChildren.find? fun p => p.node.kind = "package_declaration" with
  | none => .ok none
  | some p =>
    match p.node.childOfKind? nameKinds with
    | none => .error (.missing "name" "package_declaration")
    | some name =>
      let comment := if documentsPackage u.path then commentOf u.source p else none
      .ok (some ⟨name.text u.source, comment⟩)

/-- What stands before the name of a type at the top of the unit. -/
def packagePrefix : Option Package → String
  | none => ""
  | some p => if p.qualifiedName.isEmpty then "" else p.qualifiedName ++ "."

/-- Of two types with one simple name the first counts. -/
def localsOf (l : List Declaration) : Table String :=
  l.foldl (fun table d => table.putNew d.simpleName d.qualifiedName) Table.empty

/-- The types at the top of the unit, each with those that it holds. -/
def SourceUnit.outlines (u : SourceUnit) : Except Fault (List Decl) :=
  (u.tree.placedChildren.filter isTypeDeclaration).mapM (outline u.source)

def SourceUnit.preorder (u : SourceUnit) (package : Option Package) (l : List Decl) :
    List Declaration :=
  preorderAll u.source (packagePrefix package) [] l

def rootClass : String := "java.lang.Object"

/-- A supertype that every class has is no supertype to speak of. -/
def unlessRoot (r : TypeRef) : TypeRef :=
  if r.qualifiedName = some rootClass then ⟨.absent, r.text, none⟩ else r

def superclass (scope : Scope) (vars : List String) (n : Node) : Except Fault (Option TypeRef) :=
  match (n.childOfKind? ["superclass"]).bind fun s => s.namedChildren.getLast? with
  | none => .ok none
  | some type => (typeRef scope vars type).map fun r => some (unlessRoot r)

/-- Classes implement interfaces, and interfaces extend them. -/
def interfaces (scope : Scope) (vars : List String) (n : Node) : Except Fault (List TypeRef) :=
  let list := (n.childOfKind? ["super_interfaces", "extends_interfaces"]).bind fun s =>
    s.childOfKind? ["type_list"]
  match list with
  | none => .ok []
  | some types => types.namedChildren.mapM (typeRef scope vars)

def typeDecl (scope : Scope) (d : Declaration) : Except Fault (Nat × TypeDecl) := do
  let superclass ← superclass scope d.typeVars d.place.node
  let interfaces ← interfaces scope d.typeVars d.place.node
  let methods ← d.methods.mapM (method scope d.typeVars)
  return (scope.source.row d.place.node.start + 1,
    ⟨d.qualifiedName, d.simpleName, superclass, interfaces, methods,
      commentOf scope.source d.place⟩)

def SourceUnit.scope (u : SourceUnit) (l : List Declaration) : Scope :=
  ⟨u.source, importsOf u.source u.tree, localsOf l⟩

/-- The names of all types are collected before the first signature is read. -/
def SourceUnit.contribution (u : SourceUnit) : Contribution :=
  match packageOf u with
  | .error f => { fault := some f }
  | .ok package =>
    match u.outlines with
    | .error f => { package := package, fault := some f }
    | .ok l =>
      let declarations := u.preorder package l
      let types := Progress.run (typeDecl (u.scope declarations)) declarations
      { package := package, types := types.done, fault := types.fault }

end ApiDocs.Index
