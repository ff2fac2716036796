import ApiDocs.Table
import ApiDocs.Text.Blank

/-! A documentation comment: a narrative body and the block tags after it. It gives descriptions of
the declaration itself, of its parameters, and of what it returns. -/

namespace ApiDocs

/-- The segments are runs of plain text and inline tags such as {@code x}, in the order of the
text. -/
structure Tag where
  kind : String
  /-- The parameter that a `param` tag describes. -/
  name : Option String := none
  segments : List String := []
deriving DecidableEq, Repr

/-- The body holds segments too. -/
structure Comment where
  body : List String := []
  tags : List Tag := []
deriving DecidableEq, Repr

namespace Comment

open Text

def narrative (c : Comment) : String := "\n".intercalate c.body

def describedParam (t : Tag) : Option String := if t.kind = "param" then t.name else none

/-- The description of each parameter; the last tag for a name counts. -/
def paramDocs (c : Comment) : Table String :=
  c.tags.foldl
    (fun docs t =>
      match describedParam t with
      | some name => docs.put name (trimmed (" ".intercalate t.segments))
      | none => docs)
    Table.empty

/-- The first `return` tag counts, and its text stays untrimmed. -/
def returnDoc? (c : Comment) : Option String :=
  (c.tags.find? fun t => t.kind = "return").map fun t => " ".intercalate t.segments

end Comment

end ApiDocs
