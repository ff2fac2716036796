import ApiDocs.Event
import ApiDocs.Index.Contribution

/-! The index of everything found so far. A package keeps its place, and the last comment found
for it; a type keeps its place and its first declaration. A unit is entered while its declarations
are walked, so a fault leaves behind what was entered before it. -/

namespace ApiDocs

open Index

structure Index where
  packages : Table (Option Comment) := Table.empty
  types : Table TypeDecl := Table.empty

namespace Index

def empty : Index := {}

/-- An index with what was told on the way to it. -/
structure Step (α : Type) where
  index : Index
  events : List Event
  result : α

/-- After a fault nothing follows. -/
def Step.andThen (s : Step (Option Fault)) (next : Index → Step (Option Fault)) :
    Step (Option Fault) :=
  match s.result with
  | some _ => s
  | none =>
    let t := next s.index
    ⟨t.index, s.events ++ t.events, t.result⟩

/-- A package without a comment does not erase one. -/
def addPackage (t : Table (Option Comment)) (p : Package) : Table (Option Comment) :=
  if p.comment.isSome || !t.contains p.qualifiedName then t.put p.qualifiedName p.comment else t

def enterPackage (x : Index) (p : Option Package) : Index :=
  { x with packages := p.elim x.packages (addPackage x.packages) }

def typeEvent (t : Nat × TypeDecl) : Event :=
  .typeIndexed t.2.qualifiedName t.1 t.2.methods.length

/-- The declaration is read in any case, but entered only under a new name. -/
def enter (scope : Scope) (x : Index) (d : Declaration) : Step (Option Fault) :=
  match typeDecl scope d with
  | .error f => ⟨x, [], some f⟩
  | .ok t =>
    if x.types.contains d.qualifiedName then ⟨x, [], none⟩
    else ⟨{ x with types := x.types.putNew d.qualifiedName t.2 }, [typeEvent t], none⟩

mutual

/-- Enters the declaration, then those that it holds; `before` stands in front of the name. -/
def walk (scope : Scope) (before : String) (vars : List String) (x : Index) :
    Decl → Step (Option Fault)
  | .mk place name methods nested =>
    let vars := typeParameters scope.source place.node ++ vars
    (x.enter scope ⟨place, name, before ++ name, vars, methods⟩).andThen fun y =>
      walkAll scope (before ++ name ++ ".") vars y nested

def walkAll (scope : Scope) (before : String) (vars : List String) (x : Index) :
    List Decl → Step (Option Fault)
  | [] => ⟨x, [], none⟩
  | d :: rest =>
    (walk scope before vars x d).andThen fun y => walkAll scope before vars y rest

end

/-- The package is entered first, and the unit is reported once all its types are in. -/
def add (x : Index) (u : SourceUnit) : Step (Option Fault) :=
  match packageOf u with
  | .error f => ⟨x, [], some f⟩
  | .ok package =>
    let y := x.enterPackage package
    match u.outlines with
    | .error f => ⟨y, [], some f⟩
    | .ok l =>
      (walkAll (u.scope (u.preorder package l)) (packagePrefix package) [] y l).andThen fun z =>
        ⟨z, [.unitIndexed u.path (package.map Package.qualifiedName)], none⟩

/-- One unit after the other, whether or not those before it have a fault. -/
def addAll (x : Index) : List SourceUnit → Step (List (Option Fault))
  | [] => ⟨x, [], []⟩
  | u :: rest =>
    let first := x.add u
    let others := addAll first.index rest
    ⟨others.index, first.events ++ others.events, first.result :: others.result⟩

def catalog (x : Index) : Catalog where
  packages := x.packages.entries.map fun e => ⟨e.1, e.2⟩
  types := x.types.values

end Index

end ApiDocs
