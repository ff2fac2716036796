import ApiDocs.Comment.Descriptions
import ApiDocs.Comment.TagStarts

/-! From the raw text of a comment to its body and tags. What frames a documentation comment is
taken off first: two stars after the opening slash, and a column of stars at the line starts. The
body ends where the first block tag starts, and each tag where the next one does. -/

namespace ApiDocs

open Text

namespace Comment

/-! ## The frame -/

/-- An empty ordinary comment has the two stars too, but is no documentation. -/
def isDocumentation (raw : String) : Bool :=
  ['/', '*', '*'].isPrefixOf raw.toList && raw.toList != ['/', '*', '*', '/']

def dropClosing (s : List Char) : List Char :=
  if ['*', '/'].isSuffixOf s then s.take (s.length - 2) else s

/-- Without the blanks at the end and, where a star comes first, without all up to it and one space
after it. -/
def undecorateLine (line : List Char) : List Char :=
  match trimStart (trimEnd line) with
  | '*' :: ' ' :: r => r
  | '*' :: r => r
  | _ => trimEnd line

def undecorate (raw : List Char) : List Char :=
  unlines ((lines (dropClosing (raw.drop 3))).map undecorateLine)

def stripDecoration (raw : String) : String := String.ofList (undecorate raw.toList)

/-! ## The text inside -/

def slice (text : List Char) (start stop : Nat) : List Char := (text.take stop).drop start

/-- Where the text before the first of the tags ends. -/
def stop (text : List Char) (starts : List TagStart) : Nat :=
  (starts.head?.map TagStart.offset).getD text.length

/-- Each tag's name with the text up to the next tag, trimmed. -/
def sections (text : List Char) : List TagStart → List (List Char × List Char)
  | [] => []
  | s :: rest =>
    (s.name, trim (slice text (s.offset + 1 + s.name.length) (stop text rest))) ::
      sections text rest

def bodyText (text : List Char) (starts : List TagStart) : List Char :=
  trim (text.take (stop text starts))

/-- The text after the first word, and the blanks after that. -/
def afterFirstWord (content : List Char) : List Char :=
  trimStart (content.dropWhile fun c => !isBlank c)

def firstWord (content : List Char) : List Char := content.takeWhile fun c => !isBlank c

end Comment

def Tag.ofSection (name content : List Char) : Tag :=
  if name = "param".toList then
    { kind := "param"
      name := some (String.ofList (Comment.firstWord content))
      segments := (Comment.segments (Comment.afterFirstWord content)).map String.ofList }
  else
    { kind := String.ofList name
      segments := (Comment.segments content).map String.ofList }

namespace Comment

def ofText (text : List Char) : Comment :=
  let starts := tagStarts text
  { body := (segments (bodyText text starts)).map String.ofList
    tags := (sections text starts).map fun s => Tag.ofSection s.1 s.2 }

/-- Nothing for a text that is no documentation comment. -/
def parse? (raw : String) : Option Comment :=
  if isDocumentation raw then some (ofText (undecorate raw.toList)) else none

end Comment

end ApiDocs
