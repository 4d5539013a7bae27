import Radioplay.Library
import Radioplay.Timeline

/-! Previews: the voices of a timeline laid onto a silent bed, each at its entry's start. A voice is
cut out of its clip to the millisecond and faded at both ends, unless it is too short for that. -/

namespace Radioplay.Preview

open Sound

/-- The length of a fade, in milliseconds. -/
def fadeMs : Number := .int 15

section

variable {α : Type} [Quantity α]

/-- A time in seconds as the nearest millisecond. -/
def toMs (seconds : α) : Except Fault Int := do
  let ms ← Quantity.mul seconds (Quantity.ofInt 1000)
  Quantity.round ms

/-- The milliseconds between which a stretch lies that starts at a time and lasts for a time, both
in seconds. -/
def bounds (start length : α) : Except Fault (Int × Int) := do
  let first ← toMs start
  let count ← toMs length
  return (first, first + count)

end

/-- The stretch of a clip that starts at a time and lasts for a time, both in seconds. -/
def slice [Kit] (clip : Clip) (start length fade : Number) : Except Fault Clip := do
  let (first, last) ← bounds start length
  let part ← Kit.cut clip (.int first) (.int last)
  let long ←
    if Number.lt (.int 0) fade then do
      let both ← Number.mul (.int 2) fade
      pure (Number.lt both (.int (← Kit.ms part)))
    else pure false
  if long then do
    let risen ← Kit.fadeIn part fade
    Kit.fadeOut risen fade
  else return part

/-- The rate of a mix in which nothing plays. -/
def defaultRate : Nat := 44100

/-- The rate of a mix: that of the first clip that plays. -/
def rate (library : Library) : List (Entry Number) → Except Fault Nat
  | [] => .ok defaultRate
  | e :: rest =>
    match e.voice with
    | some v => (library.raw v.path).map (·.rate)
    | none => rate library rest

/-- Lays the voices of entries onto a bed. -/
def lay [Kit] (library : Library) (fade : Number) (bed : Clip) :
    List (Entry Number) → Except Fault Clip
  | [] => .ok bed
  | e :: rest =>
    match e.voice with
    | none => lay library fade bed rest
    | some v => do
      let clip ← library.clip v.path
      let part ← slice clip v.start v.length fade
      let bed ← Kit.overlay bed part e.start
      lay library fade bed rest

/-- The mix of a timeline. -/
def render [Kit] (library : Library) (t : Timeline Number) (fade : Number) : Except Fault Clip := do
  let rate ← rate library t.entries
  let bed ← Kit.silent t.total rate
  lay library fade bed t.entries

end Radioplay.Preview
