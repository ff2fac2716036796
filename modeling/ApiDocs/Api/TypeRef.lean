import ApiDocs.Text.Quoted

/-! A reference to a type, as a declaration spells it. -/

namespace ApiDocs

inductive TypeKind where
  | declared
  /-- No type, where one could stand. -/
  | absent
  | primitive
  | array
  | typeVar
  | void
  /-- Nothing that spells a type. -/
  | malformed
deriving DecidableEq, Repr

namespace TypeKind

def all : List TypeKind := [declared, absent, primitive, array, typeVar, void, malformed]

def word : TypeKind → String
  | declared => "DECLARED"
  | absent => "NONE"
  | primitive => "PRIMITIVE"
  | array => "ARRAY"
  | typeVar => "TYPEVAR"
  | void => "VOID"
  | malformed => "ERROR"

/-- A word that names no kind. -/
structure Unknown where
  word : String
deriving DecidableEq, Repr

def Unknown.message (u : Unknown) : String := Text.quoted u.word ++ " is not a valid TypeKind"

def ofWord (word : String) : Except Unknown TypeKind :=
  match all.find? fun k => k.word = word with
  | some k => .ok k
  | none => .error ⟨word⟩

end TypeKind

structure TypeRef where
  kind : TypeKind
  /-- The rendering, such as java.util.List<java.lang.String>. -/
  text : String
  /-- The name without type arguments, for a declared type. -/
  qualifiedName : Option String := none
deriving DecidableEq, Repr

end ApiDocs
