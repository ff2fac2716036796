import ApiDocs.Api.Basic
import ApiDocs.Comment.Descriptions
import ApiDocs.Event
import ApiDocs.Progress
import ApiDocs.Report.Basic

/-! From the declarations to the report. Each type that declares a method becomes a class; a
reference to a declared type must have a name. -/

namespace ApiDocs

/-- A reference to a declared type without a qualified name; `text` is its rendering. -/
structure UnnamedReference where
  text : String
deriving DecidableEq, Repr

def UnnamedReference.message (f : UnnamedReference) : String :=
  "Declared type reference " ++ Text.quoted f.text ++ " has no qualified name"

def TypeRef.declaredName (r : TypeRef) : Except UnnamedReference String :=
  match r.qualifiedName with
  | none => .error ⟨r.text⟩
  | some name => if name.isEmpty then .error ⟨r.text⟩ else .ok name

namespace Report

def narrativeOf (c : Option Comment) : String := (c.map Comment.narrative).getD ""

/-- A blank text counts as none. -/
def unlessBlank (s : String) : Option String := if Text.isBlankText s then none else some s

def compilePackage (p : ApiDocs.Package) : Package :=
  ⟨p.qualifiedName, unlessBlank (narrativeOf p.comment)⟩

def compileReturn (m : ApiDocs.Method) : Return :=
  ⟨m.returnType.text, (m.comment.bind Comment.returnDoc?).bind unlessBlank⟩

def compileArgument (docs : Table String) (p : Param) : Argument :=
  ⟨p.name, p.type.text, (docs.get? p.name).filter fun d => !d.isEmpty⟩

def compileMethod (m : ApiDocs.Method) : Method where
  name := m.name
  doc := narrativeOf m.comment
  returns := compileReturn m
  arguments := m.params.map (compileArgument ((m.comment.map Comment.paramDocs).getD Table.empty))
  annotations := m.annotations

def compileSuperclass : Option TypeRef → Except UnnamedReference (Option String)
  | none => .ok none
  | some r => if r.kind = .declared then r.declaredName.map some else .ok none

/-- Supertypes of any other kind have no name and are left out. -/
def compileClass (t : TypeDecl) : Except UnnamedReference Class := do
  let superclass ← compileSuperclass t.superclass
  let interfaces ← (t.interfaces.filter fun r => r.kind = .declared).mapM TypeRef.declaredName
  return ⟨t.qualifiedName, narrativeOf t.comment, superclass, interfaces,
    t.methods.map compileMethod⟩

def documented (c : Catalog) : List TypeDecl := c.types.filter fun t => !t.methods.isEmpty

def compileClasses (c : Catalog) : Progress UnnamedReference Class :=
  Progress.run compileClass (documented c)

def sortedBy {α : Type} (name : α → String) (l : List α) : List α :=
  l.mergeSort fun a b => decide (name a ≤ name b)

def arrange (settings : Settings) (r : Report) : Report :=
  if settings.sortByName then ⟨sortedBy Class.name r.classes, sortedBy Package.name r.packages⟩
  else r

def compile (settings : Settings) (c : Catalog) : Except UnnamedReference Report := do
  let classes ← (compileClasses c).result
  return arrange settings ⟨classes, c.packages.map compilePackage⟩

/-- Each class is announced before it is compiled, so the one that fails is the last. -/
def compileEvents (c : Catalog) : List Event :=
  let classes := compileClasses c
  let begun := (documented c).take (classes.done.length + classes.fault.toList.length)
  begun.map (fun t => .compiling t.qualifiedName t.methods.length) ++
    if classes.fault.isSome then []
    else [.compiled classes.done.length c.packages.length]

end Report

end ApiDocs
