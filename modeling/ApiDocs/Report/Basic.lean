/-! The document that is written, a record for each class with its methods and for each package,
and the settings for it. -/

namespace ApiDocs

namespace Report

structure Package where
  name : String
  doc : Option String := none
deriving DecidableEq, Repr

structure Return where
  type : String
  doc : Option String := none
deriving DecidableEq, Repr

structure Argument where
  name : String
  type : String
  doc : Option String := none
deriving DecidableEq, Repr

structure Method where
  name : String
  doc : String
  returns : Return
  arguments : List Argument := []
  annotations : List String := []
deriving DecidableEq, Repr

structure Class where
  name : String
  doc : String
  superclass : Option String := none
  interfaces : List String := []
  methods : List Method := []
deriving DecidableEq, Repr

end Report

structure Report where
  classes : List Report.Class := []
  packages : List Report.Package := []
deriving DecidableEq, Repr

structure Settings where
  outputPath : String := "./docs.json"
  /-- Spaces for each level of the written text. -/
  indent : Nat := 2
  /-- Classes and packages by name, and not in the order in which they were found. -/
  sortByName : Bool := false
deriving DecidableEq, Repr

namespace Settings

structure NegativeIndent where
  indent : Int
deriving DecidableEq, Repr

def NegativeIndent.message (f : NegativeIndent) : String :=
  "indent must be >= 0, got " ++ toString f.indent

def make (outputPath : String) (indent : Int) (sortByName : Bool) :
    Except NegativeIndent Settings :=
  if indent < 0 then .error ⟨indent⟩ else .ok ⟨outputPath, indent.toNat, sortByName⟩

end Settings

end ApiDocs
