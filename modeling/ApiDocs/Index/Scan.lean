import ApiDocs.Files.Walk
import ApiDocs.Index.Basic

/-! Indexing the source files of a directory one after the other. A file that cannot be opened or
whose unit has a fault is skipped, and the next one follows. -/

namespace ApiDocs

/-- A carriage return, alone or before a line feed, reads as a line feed. -/
def Text.foldLineEnds : List Char → List Char
  | [] => []
  | '\r' :: '\n' :: r => '\n' :: foldLineEnds r
  | '\r' :: r => '\n' :: foldLineEnds r
  | c :: r => c :: foldLineEnds r

namespace Index

open Files

def decodeFile (bytes : List UInt8) : String :=
  String.ofList (Text.foldLineEnds (Text.Utf8.decode bytes))

/-- How a unit is made from the text of a file and its path. -/
abbrev UnitReader := String → String → SourceUnit

def skip (path cause : String) : Event := .fileSkipped path cause

/-- The result is the path, if the file was skipped. -/
def addFile (read : UnitReader) (x : Index) (f : Found) : Step (Option String) :=
  match f.bytes with
  | none => ⟨x, [skip f.path "nothing to open"], some f.path⟩
  | some bytes =>
    let step := x.add (read (decodeFile bytes) f.path)
    match step.result with
    | none => ⟨step.index, step.events, none⟩
    | some fault => ⟨step.index, step.events ++ [skip f.path fault.message], some f.path⟩

structure Scan where
  /-- Files that were indexed. -/
  count : Nat
  skipped : List String

def addFiles (read : UnitReader) (x : Index) : List Found → Step Scan
  | [] => ⟨x, [], ⟨0, []⟩⟩
  | f :: rest =>
    let first := x.addFile read f
    let others := addFiles read first.index rest
    ⟨others.index, first.events ++ others.events,
      match first.result with
      | none => ⟨others.result.count + 1, others.result.skipped⟩
      | some path => ⟨others.result.count, path :: others.result.skipped⟩⟩

/-- A root that is no directory holds no files. -/
def scan (read : UnitReader) (x : Index) (root : String) (l : Option Listing) : Step Scan :=
  x.addFiles read ((l.map (sourceFiles root)).getD [])

end Index

end ApiDocs
