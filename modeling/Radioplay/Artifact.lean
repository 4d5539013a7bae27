import Radioplay.FileTree
import Radioplay.Json.Printer
import Radioplay.Json.Reader
import Radioplay.Slug
import Radioplay.Timing

/-! Artifacts: values kept as JSON files in an episode's output folder, and settings read from such
a file. -/

namespace Radioplay.Artifact

/-- Writes a value to a file. A value that cannot be written whole leaves its first part there. -/
def writeValue (path : String) (v : Value) : Act FileTree Unit := do
  FileTree.writeText path []
  let (text, fault) := Json.write v
  FileTree.writeText path text
  match fault with
  | none => return
  | some fault => Act.fail fault

/-- The value in a file. -/
def readValue (t : FileTree) (path : String) : Except Fault Value := do
  let bytes ← t.read path
  let text ← Text.ofFile bytes
  Json.parse text

/-- Makes the output folder of a script; the answer is its path. -/
def makeFolder (scriptPath outputBase : String) : Act FileTree String := do
  let path := Path.join outputBase [Slug.ofPath scriptPath]
  FileTree.ensureFolders path
  return path

/-- Writes an artifact into a folder; the answer is its path. -/
def write (folder name : String) (v : Value) : Act FileTree String := do
  let path := Path.join folder [name]
  writeValue path v
  return path

/-- The artifact in a folder, none where there is no such file. -/
def load (t : FileTree) (folder name : String) : Except Fault (Option Value) :=
  let path := Path.join folder [name]
  if t.exists? path then (readValue t path).map some else .ok none

/-- The settings in a file, or those that hold where no file is named. -/
def loadTiming (t : FileTree) (path : Option String) : Except Fault Timing :=
  match path.filter fun p => !p.isEmpty with
  | none => .ok {}
  | some path =>
    if !t.exists? path then .error (.configMissing path)
    else
      let folder := Path.parent path
      match load t (if folder.isEmpty then "." else folder) (Path.baseName path) with
      | .error fault => .error fault
      | .ok (some (.obj fields)) => .ok (Timing.ofTable fields)
      | .ok _ => .error (.configNotObject path)

end Radioplay.Artifact
