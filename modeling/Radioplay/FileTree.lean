import Radioplay.Act
import Radioplay.Path
import Radioplay.Text.Utf8

/-! A tree of folders and files, as seen from the current folder. A place is the list of names that
leads to it; a path is looked up step by step, and every step but the last has to be a folder. Links
and permissions are left out, and so are names that are no text. -/

namespace Radioplay

inductive Node where
  | folder
  | file (bytes : List UInt8)
  deriving DecidableEq, Inhabited

structure FileTree where
  nodes : List (List String × Node)
  deriving Inhabited

namespace FileTree

def empty : FileTree := ⟨[]⟩

/-- The place of the root, which places given from the root start with. -/
def root : List String := ["/"]

/-- The place for the parent folder, which places outside the current folder start with. -/
def above : String := ".."

/-- How a place is written as a path. -/
def pathTo (place : List String) : String :=
  if place.take 1 = root then "/" ++ String.intercalate "/" (place.drop 1)
  else String.intercalate "/" place

/-- Is a place in the current folder? -/
def isInside (place : List String) : Bool :=
  place.head? != some above && place.take 1 != root

/-- The folders that are always there: the root, the current folder and those it is in. -/
def isGiven (place : List String) : Bool := place == root || place.all (· == above)

/-- What is at a place. -/
def node? (t : FileTree) (place : List String) : Option Node :=
  if isGiven place then some .folder else t.nodes.lookup place

/-- Puts a node at a place, instead of one that is there. -/
def put (t : FileTree) (place : List String) (n : Node) : FileTree :=
  if (t.nodes.lookup place).isSome then
    ⟨t.nodes.map fun e => if e.1 = place then (place, n) else e⟩
  else ⟨t.nodes ++ [(place, n)]⟩

/-- Is a step beyond this place possible, and if not, why not? -/
def obstacle? (t : FileTree) (place : List String) : Option FileProblem :=
  match t.node? place with
  | some .folder => none
  | some (.file _) => some .notFolder
  | none => some .missing

/-- The place of the folder that a folder is in; the root is in itself. -/
def parentOf (place : List String) : List String :=
  if place = root then root
  else if place.all (· == above) then above :: place
  else place.dropLast

/-- The most bytes in a name, and in a whole path with the one that ends it. -/
def nameLimit : Nat := 255

def pathLimit : Nat := 4096

/-- The place that components lead to from another place. -/
def follow (t : FileTree) (here : List String) : List String → Except FileProblem (List String)
  | [] => .ok here
  | c :: rest =>
    match t.obstacle? here with
    | some problem => .error problem
    | none =>
      if c = "" ∨ c = "." then follow t here rest
      else if c = above then follow t (parentOf here) rest
      else if nameLimit < c.utf8ByteSize then .error .nameTooLong
      else follow t (here ++ [c]) rest

/-- The place that components of a path lead to. -/
def locateBy (t : FileTree) (path : String) (components : List String) :
    Except Fault (List String) :=
  let found :=
    if path.isEmpty then .error .missing
    else if pathLimit ≤ path.utf8ByteSize then .error .nameTooLong
    else t.follow (if Path.isRooted path then root else []) components
  if '\x00' ∈ path.toList then .error .badPath
  else found.mapError fun problem => .file problem path

/-- The place of a path, where something may be or not. -/
def locate (t : FileTree) (path : String) : Except Fault (List String) :=
  t.locateBy path (Path.components path)

def find? (t : FileTree) (path : String) : Option Node :=
  match t.locate path with
  | .ok place => t.node? place
  | .error _ => none

def exists? (t : FileTree) (path : String) : Bool := (t.find? path).isSome

def isFolder (t : FileTree) (path : String) : Bool := t.find? path == some .folder

/-- The bytes of a file. -/
def read (t : FileTree) (path : String) : Except Fault (List UInt8) := do
  let place ← t.locate path
  match t.node? place with
  | none => .error (.file .missing path)
  | some .folder => .error (.file .isFolder path)
  | some (.file bytes) => .ok bytes

/-- The tree with a file written at a path, in a folder that is there. A path that ends in a slash
names a folder, whatever is there. -/
def write (t : FileTree) (path : String) (bytes : List UInt8) : Except Fault FileTree := do
  let components := Path.components (Path.trimmed path)
  if Path.trimmed path = path then
    let place ← t.locateBy path components
    match t.node? place with
    | some .folder => .error (.file .isFolder path)
    | _ => .ok (t.put place (.file bytes))
  else
    let _ ← t.locateBy path (components.dropLast ++ ["."])
    .error (.file .isFolder path)

/-- The tree without the file at a path. -/
def delete (t : FileTree) (path : String) : Except Fault FileTree := do
  let place ← t.locate path
  match t.node? place with
  | none => .error (.file .missing path)
  | some .folder => .error (.file .isFolder path)
  | some (.file _) => .ok ⟨t.nodes.filter fun e => e.1 ≠ place⟩

/-- The tree with one folder more. Slashes at the end of its path ask for nothing. -/
def makeFolder (t : FileTree) (path : String) : Except Fault FileTree := do
  let place ← t.locateBy path (Path.components (Path.trimmed path))
  match t.node? place with
  | some _ => .error (.file .alreadyThere path)
  | none => .ok (t.put place .folder)

/-- The folders on the way to a path that have to be made first, outermost first: its parents, up
to the nearest that is there. -/
def missingParents (t : FileTree) : (fuel : Nat) → (path : String) → List String
  | 0, _ => []
  | fuel + 1, path =>
    let whole := if (Path.baseName path).isEmpty then Path.parent path else path
    let head := Path.parent whole
    let tail := Path.baseName whole
    if head.isEmpty ∨ tail.isEmpty ∨ t.exists? head then []
    else missingParents t fuel head ++ [head]

/-- Makes a folder, or leaves one that is there. -/
def ensureFolder (path : String) : Act FileTree Unit := do
  let t ← get
  match t.makeFolder path with
  | .ok t' => set t'
  | .error fault => if t.isFolder path then return else Act.fail fault

/-- Makes folders in order. What is already there in the place of one is left for the next step to
trip over. -/
def makeAll : List String → Act FileTree Unit
  | [] => return
  | path :: rest => do
    let t ← get
    match t.makeFolder path with
    | .ok t' => set t'
    | .error (.file .alreadyThere _) => pure ()
    | .error fault => Act.fail fault
    makeAll rest

/-- How many folders are made on the way to one. -/
def depthLimit : Nat := 980

/-- Makes a folder and those on the way to it, as far as they are not there. -/
def ensureFolders (path : String) : Act FileTree Unit := do
  let t ← get
  let parents := t.missingParents path.length path
  if depthLimit < parents.length then Act.fail .nestedTooDeep
  else
    makeAll parents
    ensureFolder path

/-- Names in the order of their code points. -/
def sorted (names : List String) : List String := names.mergeSort fun a b => decide (a ≤ b)

/-- The names in the folder at a place. -/
def namesIn (t : FileTree) (place : List String) : List String :=
  sorted (t.nodes.filterMap fun (p, _) =>
    if p.length = place.length + 1 ∧ p.dropLast = place then p.getLast? else none)

/-- The names in the folder at a path, none where there is no folder. -/
def namesAt (t : FileTree) (path : String) : List String :=
  match t.locate path with
  | .ok place => if t.node? place = some .folder then t.namesIn place else []
  | .error _ => []

/-- What a tree has that another has not, or has otherwise. -/
def changesFrom (after before : FileTree) : List (List String × Node) :=
  after.nodes.filter fun e => !(before.node? e.1 == some e.2)

/-- Writes a file. -/
def writeBytes (path : String) (bytes : List UInt8) : Act FileTree Unit := do
  let t ← get
  match t.write path bytes with
  | .ok t' => set t'
  | .error fault => Act.fail fault

/-- Writes a text. -/
def writeText (path : String) (text : List Char) : Act FileTree Unit :=
  writeBytes path (Text.encode text)

end FileTree

end Radioplay
