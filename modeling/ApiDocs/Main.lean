import ApiDocs.Export

/-! The command line: documents the sources below a directory, or the samples if none is named,
and writes the report to the default path. Progress goes to standard error. -/

namespace ApiDocs.Main

open Files

def tell (e : Event) : IO Unit := IO.eprintln (e.level.word ++ " " ++ e.message)

def fail (message : String) : IO UInt32 := do
  IO.eprintln message
  return 1

def bytesOf (d : IO.FS.DirEntry) : IO (Option (List UInt8)) := do
  try return some (← IO.FS.readBinFile d.path).data.toList
  catch _ => return none

partial def entryOf (d : IO.FS.DirEntry) : IO (String × Entry) := do
  if ← d.path.isDir then
    let inner ← d.path.readDir
    return (d.fileName, .dir (← inner.toList.mapM entryOf))
  return (d.fileName, match ← bytesOf d with
    | some bytes => .file bytes
    | none => .dangling)

def listingOf (root : String) : IO (Option Listing) := do
  let path := (← IO.currentDir) / root
  if root.isEmpty || !(← path.isDir) then return none
  let entries ← path.readDir
  return some (← entries.toList.mapM entryOf)

def inputOf : List String → IO Export.Input
  | [] => return .samples
  | root :: _ => return .directory root (← listingOf root)

def write (settings : Settings) (r : Report) : IO UInt32 := do
  let path := Path.ofString settings.outputPath
  try
    IO.FS.writeFile path.toString (r.text settings.indent)
    tell (writtenEvent r path)
    return 0
  catch e =>
    tell (.writeFailed path.toString (toString e))
    fail (WriteFault.message ⟨path, .noDirectory⟩)

def run (args : List String) : IO UInt32 := do
  let settings : Settings := {}
  let outcome := Export.run settings (← inputOf args)
  outcome.events.forM tell
  match outcome.report with
  | .error fault => fail fault.message
  | .ok report => write settings report

end ApiDocs.Main

def main (args : List String) : IO UInt32 := ApiDocs.Main.run args
