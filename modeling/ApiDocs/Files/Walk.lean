import ApiDocs.Files.Directory

/-! The order in which a directory is searched: first its own files by name, then its
subdirectories by name, each in the same way. The order of the entries in the listing does not
matter. -/

namespace ApiDocs.Files

/-- A file with its full path; no bytes if it cannot be opened. -/
structure Found where
  path : String
  name : String
  bytes : Option (List UInt8)

/-- What one entry contributes: itself as a file, or what is found below it. -/
structure Branch where
  name : String
  own : Option Found
  below : List Found

def byName (l : List Branch) : List Branch := l.mergeSort fun a b => decide (a.name ≤ b.name)

def inOrder (branches : List Branch) : List Found :=
  (byName branches).filterMap Branch.own ++ (byName branches).flatMap Branch.below

mutual

def Entry.branch (directory name : String) : Entry → Branch
  | .file bytes => ⟨name, some ⟨Path.below directory name, name, some bytes⟩, []⟩
  | .dangling => ⟨name, some ⟨Path.below directory name, name, none⟩, []⟩
  | .dir entries => ⟨name, none, inOrder (branches (Path.below directory name) entries)⟩

def branches (directory : String) : List (String × Entry) → List Branch
  | [] => []
  | (name, e) :: rest => e.branch directory name :: branches directory rest

end

def walk (directory : String) (l : Listing) : List Found := inOrder (branches directory l)

def isSourceFile (f : Found) : Bool := f.name.endsWith ".java"

def sourceFiles (directory : String) (l : Listing) : List Found :=
  (walk directory l).filter isSourceFile

end ApiDocs.Files
