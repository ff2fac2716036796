import ApiDocs.Syntax.Node
import ApiDocs.Table
import ApiDocs.Text.Blank

/-! What a simple name means in a source unit: a type variable, a type of the unit, an imported
type, a type that is always in scope, or only itself. -/

namespace ApiDocs.Index

open Text

/-- Types of the package java.lang that need no import. -/
def alwaysInScope : List String :=
  ["AutoCloseable", "Boolean", "Byte", "CharSequence", "Character", "Class", "Cloneable",
   "Comparable", "Deprecated", "Double", "Enum", "Error", "Exception", "Float",
   "FunctionalInterface", "IllegalArgumentException", "IllegalStateException",
   "IndexOutOfBoundsException", "Integer", "Iterable", "Long", "Math", "Number",
   "NullPointerException", "Object", "Override", "Record", "Runnable", "RuntimeException",
   "SafeVarargs", "Short", "String", "StringBuilder", "SuppressWarnings", "System", "Thread",
   "Throwable", "UnsupportedOperationException", "Void"]

structure Scope where
  source : Source
  imports : Table String := Table.empty
  locals : Table String := Table.empty

def Scope.resolve (scope : Scope) (vars : List String) (name : String) : String :=
  if vars.contains name then name
  else match scope.locals.get? name with
    | some qualified => qualified
    | none =>
      match scope.imports.get? name with
      | some qualified => qualified
      | none => if alwaysInScope.contains name then "java.lang." ++ name else name

/-- The part after the last dot. -/
def lastPart (qualified : String) : String :=
  String.ofList ((qualified.toList.splitOn '.').getLastD [])

def nameKinds : List String := ["identifier", "scoped_identifier"]

/-- The type that an import names; imports of members and of whole packages name none. -/
def importedType? (source : Source) (n : Node) : Option String :=
  if (n.childOfKind? ["asterisk", "static"]).isSome then none
  else (n.childOfKind? nameKinds).map fun name => name.text source

/-- Of two imports for one simple name the last counts. -/
def importsOf (source : Source) (root : Node) : Table String :=
  ((root.childrenOfKind ["import_declaration"]).filterMap (importedType? source)).foldl
    (fun table qualified => table.put (lastPart qualified) qualified) Table.empty

theorem Scope.resolve_of_mem {scope : Scope} {vars : List String} {name : String}
    (h : name ∈ vars) : scope.resolve vars name = name := by
  simp [resolve, h]

end ApiDocs.Index
