import Radioplay.Script
import Radioplay.Table

/-! Timelines: the events of a script with their places on the episode's clock, which counts
milliseconds, and the stretches of voice clips that play with them, in seconds. -/

namespace Radioplay

/-- A stretch of a clip. -/
structure Voice (α : Type) where
  path : String
  start : α
  length : α
  deriving Inhabited

structure Entry (α : Type) where
  event : Event
  duration : Value
  start : Number
  voice : Option (Voice α)
  deriving Inhabited

structure Timeline (α : Type) where
  seed : Int
  total : Number
  entries : List (Entry α)
  deriving Inhabited

namespace Entry

variable {α : Type}

/-- The end of an entry on the clock. -/
def finish (e : Entry α) : Except Fault Number := do
  let d ← e.duration.toNumber
  Number.add e.start d

def toValue (e : Entry Number) : Except Fault Value := do
  let finish ← e.finish
  let fields := Table.put "endTime" finish.toValue
    (Table.put "startTime" e.start.toValue (Table.put "duration" e.duration e.event.fields))
  match e.voice with
  | none => return .obj fields
  | some v =>
    return .obj (fields ++
      [("audioPath", .str v.path), ("audioStart", v.start.toValue),
        ("audioDuration", v.length.toValue)])

def valuesOf : List (Entry Number) → Except Fault (List Value)
  | [] => .ok []
  | e :: rest => do
    let v ← e.toValue
    let vs ← valuesOf rest
    return v :: vs

end Entry

namespace Timeline

variable {α : Type}

def toValue (t : Timeline Number) : Except Fault Value := do
  let entries ← Entry.valuesOf t.entries
  return .obj [("seed", .int t.seed), ("totalDuration", t.total.toValue), ("events", .arr entries)]

/-- The entries of lines of dialogue. -/
def lines (t : Timeline α) : List (Entry α) := t.entries.filter fun e => e.event.isText

/-- The number of lines that no clip plays with. -/
def captionCount (t : Timeline α) : Nat := (t.lines.filter fun e => e.voice.isNone).length

end Timeline

end Radioplay
