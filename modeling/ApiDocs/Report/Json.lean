import ApiDocs.Json.Layout
import ApiDocs.Report.Basic

/-! The report as a value to be written: fields in a fixed order, an absent text without its
field. -/

namespace ApiDocs.Report

def optional (key : String) : Option String → List (String × Json)
  | none => []
  | some s => [(key, .str s)]

def strings (l : List String) : Json := .arr (l.map .str)

def Package.toJson (p : Package) : Json := .obj (("name", .str p.name) :: optional "doc" p.doc)

def Return.toJson (r : Return) : Json := .obj (("type", .str r.type) :: optional "doc" r.doc)

def Argument.toJson (a : Argument) : Json :=
  .obj (("name", .str a.name) :: ("type", .str a.type) :: optional "doc" a.doc)

def Method.toJson (m : Method) : Json :=
  .obj [("name", .str m.name), ("doc", .str m.doc), ("returns", m.returns.toJson),
    ("arguments", .arr (m.arguments.map Argument.toJson)), ("annotations", strings m.annotations)]

def Class.toJson (c : Class) : Json :=
  .obj (("name", .str c.name) :: ("doc", .str c.doc) :: optional "superclass" c.superclass ++
    [("interfaces", strings c.interfaces), ("methods", .arr (c.methods.map Method.toJson))])

def toJson (r : Report) : Json :=
  .obj [("classes", .arr (r.classes.map Class.toJson)),
    ("packages", .arr (r.packages.map Package.toJson))]

/-- A negative indent counts as none. -/
def text (r : Report) (indent : Int) : String := r.toJson.text indent.toNat

end ApiDocs.Report
