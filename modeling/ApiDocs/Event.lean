/-! What a run tells about its progress. -/

namespace ApiDocs

inductive Level where
  | debug
  | info
  | warning
  | error
deriving DecidableEq, Repr

def Level.word : Level → String
  | debug => "DEBUG"
  | info => "INFO"
  | warning => "WARNING"
  | error => "ERROR"

inductive Event where
  | typeIndexed (name : String) (line methods : Nat)
  | unitIndexed (path package : Option String)
  | fileSkipped (path cause : String)
  | compiling (name : String) (methods : Nat)
  | compiled (classes packages : Nat)
  | written (classes packages : Nat) (path : String)
  | writeFailed (path cause : String)
deriving DecidableEq, Repr

namespace Event

def level : Event → Level
  | written .. => .info
  | fileSkipped .. => .warning
  | writeFailed .. => .error
  | _ => .debug

/-- An empty text is shown like an absent one. -/
def shown (placeholder : String) : Option String → String
  | none => placeholder
  | some s => if s.isEmpty then placeholder else s

def message : Event → String
  | typeIndexed name line methods => s!"Type {name} at line {line}: {methods} methods"
  | unitIndexed path package =>
    "Indexed " ++ shown "<source>" path ++ " (package " ++ shown "<unnamed>" package ++ ")"
  | fileSkipped path cause => s!"Failed to index {path}: {cause}"
  | compiling name methods => s!"Compiling {name} ({methods} methods)"
  | compiled classes packages => s!"Compiled {classes} classes and {packages} packages"
  | written classes packages path =>
    s!"Wrote {classes} classes and {packages} packages to {path}"
  | writeFailed path cause => s!"Failed to write {path}: {cause}"

end Event

end ApiDocs
