import Std.Time.DateTime.Timestamp
import Radioplay.Command.Run
import Radioplay.Instant

/-! The program. It reads what lies at the paths that a command line names, carries the command out,
and then puts down what has changed. It has no encoder of its own, so a render ends where one is
asked for. -/

namespace Radioplay.Program

open Command

/-- How far below a path anything is read: an asset tree has seven levels. -/
def depthRead : Nat := 7

/-- What is on disk at a place, and what is below it. -/
def nodesAt : (depth : Nat) → (place : List String) → IO.FS.DirEntry →
    IO (List (List String × Node))
  | 0, _, _ => return []
  | depth + 1, place, entry => do
    if ← entry.path.isDir then
      let mut nodes := [(place, Node.folder)]
      for below in ← entry.path.readDir do
        nodes := nodes ++ (← nodesAt depth (place ++ [below.fileName]) below)
      return nodes
    else if ← entry.path.pathExists then
      return [(place, .file (← IO.FS.readBinFile entry.path).toList)]
    else return []

/-- What is on disk on the way to a place, at it and below it. -/
def nodesTo (place : List String) : (rest : List String) → IO (List (List String × Node))
  | [] => return []
  | name :: rest => do
    let folder := if place.isEmpty then "." else FileTree.pathTo place
    let place := place ++ [name]
    let here ← nodesAt (if rest.isEmpty then depthRead else 1) place ⟨folder, name⟩
    return here ++ (← nodesTo place rest)

/-- What is on disk in the current folder. -/
def nodesHere : IO (List (List String × Node)) := do
  let mut nodes := []
  for entry in ← (← IO.currentDir).readDir do
    nodes := nodes ++ (← nodesAt depthRead [entry.fileName] entry)
  return nodes

/-- The files and folders at paths. -/
def readTree (paths : List String) : IO FileTree := do
  let mut tree := FileTree.empty
  for path in paths do
    let names := (Path.components (Path.normal path)).filter fun c => !c.isEmpty
    let nodes ←
      if names = ["."] then nodesHere
      else nodesTo (if Path.isRooted path then FileTree.root else []) names
    tree := nodes.foldl (fun t (place, node) => t.put place node) tree
  return tree

/-- Puts down what a run has made or changed. -/
def writeNodes (nodes : List (List String × Node)) : IO Unit := do
  for (place, node) in nodes do
    let path := FileTree.pathTo place
    match node with
    | .folder => IO.FS.createDirAll path
    | .file bytes => IO.FS.writeBinFile path ⟨bytes.toArray⟩

def now : IO String := do
  let t ← Std.Time.Timestamp.now
  return Instant.text (t.toNanosecondsSinceUnixEpoch.val.toNat / 1000)

/-- Carries out a command line; the answer is the exit status. -/
def carryOut (words : List String) : IO UInt32 := do
  let paths :=
    match requestOfLine words with
    | .ok (request, _) => request.paths
    | .error _ => []
  let files ← readTree paths
  let folder := toString (← IO.currentDir)
  let (ending, session) :=
    run { files := files, encoderFound := false, folder := folder, now := ← now } words
  writeNodes (session.desk.files.changesFrom files)
  IO.print session.output
  IO.eprint session.errors
  match ending with
  | .exit status => return status.toUInt32
  | .raised fault => do
    IO.eprintln fault.message
    return 1

end Radioplay.Program

def main (words : List String) : IO UInt32 := Radioplay.Program.carryOut words
