import ApiDocs.Event
import ApiDocs.Files.Directory
import ApiDocs.Report.Json
import ApiDocs.Text.Utf8

/-! Writing a report to a path, in place of what is there. -/

namespace ApiDocs.Files

inductive WriteCause where
  | noDirectory
  | isDirectory
  | nameTooLong
  | dangling
deriving DecidableEq, Repr

def WriteCause.message : WriteCause → String
  | noDirectory => "no such directory"
  | isDirectory => "is a directory"
  | nameTooLong => "file name too long"
  | dangling => "nothing to open"

structure WriteFault where
  path : Path
  cause : WriteCause
deriving DecidableEq, Repr

def WriteFault.message (f : WriteFault) : String :=
  "Could not write documentation to " ++ f.path.toString

/-- The most bytes a file name may have. -/
def maxNameBytes : Nat := 255

/-- Outside of the top nothing is recorded. -/
def writeAt (top : Listing) (name : String) (bytes : List UInt8) :
    Place → Except WriteCause Listing
  | .above _ => .ok top
  | .within names =>
    match find? (names ++ [name]) top with
    | some (.dir _) => .error .isDirectory
    | some .dangling => .error .dangling
    | _ => .ok (put (names ++ [name]) (.file bytes) top)

def writeBytes (top : Listing) (p : Path) (bytes : List UInt8) : Except WriteCause Listing :=
  match p.parts.getLast? with
  | none => .error .isDirectory
  | some name =>
    match resolve top ⟨p.root, p.parts.dropLast⟩ with
    | none => .error .noDirectory
    | some place =>
      if name = ".." then .error .isDirectory
      else if maxNameBytes < name.utf8ByteSize then .error .nameTooLong
      else writeAt top name bytes place

structure Written where
  path : Path
  text : String
  files : Listing

def writeReport (top : Listing) (settings : Settings) (r : Report) : Except WriteFault Written :=
  let path := Path.ofString settings.outputPath
  let text := r.text settings.indent
  match writeBytes top path (Text.Utf8.encode text.toList) with
  | .error cause => .error ⟨path, cause⟩
  | .ok files => .ok ⟨path, text, files⟩

def writtenEvent (r : Report) (path : Path) : Event :=
  .written r.classes.length r.packages.length path.toString

def WriteFault.event (f : WriteFault) : Event := .writeFailed f.path.toString f.cause.message

def writeEvent (r : Report) : Except WriteFault Written → Event
  | .error f => f.event
  | .ok w => writtenEvent r w.path

end ApiDocs.Files
