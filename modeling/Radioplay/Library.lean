import Radioplay.Energy
import Radioplay.Energy.Cache
import Radioplay.FileTree
import Radioplay.Sound.Kit
import Radioplay.Timing

/-! Libraries of clips. A clip is read and its quiet points are found when it is first loaded;
afterwards both are answered from what was kept, whatever becomes of the file. The cache of quiet
points may serve several libraries; where it has those of a path, nothing asks whether the clip read
from there can be decoded. -/

namespace Radioplay

open Sound

/-- A line for the log. -/
inductive Note where
  | debug (source message : String)
  | warning (source message : String)
  deriving DecidableEq, Repr

structure Library where
  windowMs : Value := ({} : Timing).energyWindowMs
  threshold : Value := ({} : Timing).energyThreshold
  clips : Table Wave.Raw := []
  deriving Inhabited

/-- A library with the cache that serves it, and its notes. -/
structure Shelf (α : Type) where
  library : Library
  cache : Energy.Cache (List α)
  notes : List Note := []

namespace Library

/-- An empty library with the settings of a timing. -/
def ofTiming (t : Timing) : Library :=
  { windowMs := t.energyWindowMs, threshold := t.energyThreshold }

def source : String := "fsl_previewer.audio"

/-- What is told where a clip cannot be had: of what the file system says, only that it cannot. -/
def faultOf (path : String) (fault : Fault) : Fault :=
  if fault.isFileFault then .clipUnreadable path else fault

/-- The sound in a file. -/
def read [Kit] (files : FileTree) (path : String) : Except Fault Wave.Raw :=
  match files.read path with
  | .error fault => .error (faultOf path fault)
  | .ok bytes =>
    match Kit.decode path bytes with
    | .sound raw => .ok raw
    | .unreadable => .error (.clipUnreadable path)
    | .failed fault => .error (faultOf path fault)

section

variable {α : Type} [Quantity α]

def note (n : Note) : Act (Shelf α) Unit := modify fun s => { s with notes := s.notes ++ [n] }

/-- The quiet points of a clip under a library's settings. -/
def analyze (library : Library) (raw : Wave.Raw) : Except Fault (List α) := do
  let clip ← raw.clip
  let loudness ← clip.loudness
  Energy.profile loudness (.int clip.rate) library.windowMs library.threshold

/-- What the log tells of a clip that has been read. -/
def readNote [Kit] (path : String) (raw : Wave.Raw) : Except Fault Note := do
  let seconds ← (Kit.seconds raw : Except Fault Number)
  let x ← seconds.toFloat
  return .debug source ("Decoded " ++ path ++ " (" ++ Decimal.fixed 2 x ++ "s, " ++
    toString raw.rate ++ "Hz)")

/-- Loads a clip, unless it has been loaded. -/
def load [Kit] (files : FileTree) (path : String) : Act (Shelf α) Wave.Raw := do
  let shelf ← get
  match shelf.library.clips.get? path with
  | some raw => return raw
  | none =>
    let raw ← Act.ofExcept (read files path)
    let told ← Act.ofExcept (readNote path raw)
    note told
    let (points, cache, runs) := shelf.cache.getOrCompute path (analyze shelf.library raw)
    modify fun s => { s with cache := cache }
    let points ← Act.ofExcept points
    if runs ≠ 0 then
      note (.debug source ("Energy analysis for " ++ path ++ ": " ++ toString points.length ++
        " low-energy points"))
    modify fun s => { s with library := { s.library with clips := s.library.clips.put path raw } }
    return raw

/-- Loads clips in order, up to the first that fails. -/
def preload [Kit] (files : FileTree) : List String → Act (Shelf α) Unit
  | [] => return
  | path :: rest => do
    let _ ← load files path
    preload files rest

end

/-- What has been loaded from a path. -/
def raw (library : Library) (path : String) : Except Fault Wave.Raw :=
  match library.clips.get? path with
  | some raw => .ok raw
  | none => .error (.clipNotLoaded path)

/-- A loaded clip. -/
def clip (library : Library) (path : String) : Except Fault Clip := do
  let raw ← library.raw path
  raw.clip

end Library

namespace Shelf

variable {α : Type} [Quantity α]

/-- The length of a loaded clip, in seconds. -/
def duration [Kit] (s : Shelf α) (path : String) : Except Fault α := do
  let raw ← s.library.raw path
  Kit.seconds raw

/-- The quiet points found for a path, none where it was never analyzed. -/
def points (s : Shelf α) (path : String) : List α := (s.cache.get? path).getD []

end Shelf

end Radioplay
