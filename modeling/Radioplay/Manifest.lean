import Radioplay.Artifact

/-! Manifests of an asset tree: for each character and state the names of its audio and video files,
in order. A manifest is scanned from the folders, or read from the file that an earlier scan
wrote. -/

namespace Radioplay.Manifest

def audioExtensions : List String := [".wav", ".mp3", ".ogg"]

def videoExtensions : List String := [".webm", ".mp4"]

/-- Does a name end, whatever its case, in one of the extensions? -/
def hasExtension (extensions : List String) (name : String) : Bool :=
  let cs := (Text.lower name).toList
  extensions.any fun e => e.toList.isSuffixOf cs

/-- The names with the given extensions in the folder at a path. -/
def filesIn (t : FileTree) (path : String) (extensions : List String) : List String :=
  (t.namesAt path).filter (hasExtension extensions)

def names (l : List String) : Value := .arr (l.map .str)

/-- The files of one state. -/
def scanState (t : FileTree) (path : String) : Value :=
  .obj [("audio", names (filesIn t (Path.join path ["audio"]) audioExtensions)),
    ("video", names (filesIn t (Path.join path ["video"]) videoExtensions))]

/-- The states of one character: the folders in the folder at a path. -/
def scanStates (t : FileTree) (path : String) : Table Value :=
  ((t.namesAt path).filter fun s => t.isFolder (Path.join path [s])).map fun s =>
    (s, scanState t (Path.join path [s]))

/-- The characters in the folder at a path: what has a folder of states. -/
def scanCharacters (t : FileTree) (path : String) : Table Value :=
  ((t.namesAt path).filter fun c => t.isFolder (Path.join path [c, "states"])).map fun c =>
    (c, .obj [("states", .obj (scanStates t (Path.join path [c, "states"])))])

/-- The characters of an asset tree. -/
def scan (t : FileTree) (assets : String) : Value :=
  .obj (scanCharacters t (Path.join assets ["characters"]))

/-- The manifest of an asset tree, scanned at the time given. -/
def generate (t : FileTree) (now assets : String) : Value :=
  .obj [("generated", .str now), ("characters", scan t assets)]

def filePath (assets : String) : String := Path.join assets ["manifest.json"]

/-- Scans an asset tree and writes its manifest there; the answer is the path. -/
def write (now assets : String) : Act FileTree String := do
  let t ← get
  Artifact.writeValue (filePath assets) (generate t now assets)
  return filePath assets

/-- The manifest that was written, else a new one. -/
def load (t : FileTree) (now assets : String) : Except Fault Value :=
  let path := filePath assets
  if t.exists? path then Artifact.readValue t path else .ok (generate t now assets)

end Radioplay.Manifest
