import Radioplay.Sound.Clip

/-! Fades between full loudness and a millionth of it. A short fade changes the loudness from frame
to frame, one of more than a hundred milliseconds from millisecond to millisecond. -/

namespace Radioplay.Sound.Clip

/-- A sample at another loudness, within what the width holds. -/
def scaleSample (width : Nat) (factor : Float) (x : Int) : Int :=
  let y := Float.ofInt x * factor
  if y > Float.ofInt (highest width) then highest width
  else if y < Float.ofInt (lowest width) + 1 then lowest width
  else
    match Binary64.parts? y with
    | some p => p.floor
    | none => 0

/-- A clip at another loudness. -/
def scale (factor : Float) (c : Clip) : Clip :=
  { c with samples := c.samples.map (scaleSample c.width factor) }

/-- The loudness at the quiet end of a fade, 120 decibels down. -/
def faint : Float := 1e-6

/-- The frame with the given number, nothing where there is none. -/
def frame (c : Clip) (i : Int) : Array Int :=
  let lo := boundIn c.frames i
  let hi := boundIn c.frames (i + 1)
  c.samples.extract (lo * c.channels) (hi * c.channels)

/-- Clips one after another. -/
def appendSamples (c : Clip) (parts : List Clip) : Clip :=
  { c with samples := parts.foldl (fun samples part => samples ++ part.samples) #[] }

/-- The milliseconds of a long fade, from number `i` on. -/
def coarse (c : Clip) (start : Number) (power step : Float) :
    (count : Nat) → (i : Nat) → Except Fault (List Clip)
  | 0, _ => .ok []
  | count + 1, i => do
    let here ← Number.add start (.int i)
    let next ← Number.add here (.int 1)
    let part ← c.stretch here next
    let rest ← coarse c start power step count (i + 1)
    return part.scale (power + step * Float.ofNat i) :: rest

/-- The frames of a short fade, from number `i` on; `first` is the place of number 0. -/
def fine (c : Clip) (first power step : Float) :
    (count : Nat) → (i : Nat) → Except Fault (List Clip)
  | 0, _ => .ok []
  | count + 1, i => do
    let n ← (Number.float (first + Float.ofNat i)).trunc
    let rest ← fine c first power step count (i + 1)
    let part : Clip := { c with samples := c.frame n }
    return part.scale (power + step * Float.ofNat i) :: rest

/-- The stretch between two times with its loudness going from `power` by `delta`. -/
def ramp (c : Clip) (start stop duration : Number) (power delta : Float) :
    Except Fault (List Clip) := do
  if Number.lt (.int 100) duration then
    match duration with
    | .int d => c.coarse start power (delta / (← duration.toFloat)) d.toNat 0
    | .float _ => throw .wrongKind
  else
    let first ← (← c.frameAt start).toFloat
    let last ← (← c.frameAt stop).toFloat
    let count := last - first
    if count == 0 then throw .divisionByZero
    else c.fine first power (delta / count) (← (Number.float count).trunc).toNat 0

/-- A clip that comes up from faint during its first `duration` milliseconds. -/
def fadeIn (c : Clip) (duration : Number) : Except Fault Clip := do
  if widest < c.width then throw .badWidth
  else
    let before ← c.upTo (.int 0)
    let rising ← c.ramp (.int 0) duration duration faint (1 - faint)
    let after ← c.onward duration
    return c.appendSamples (before.scale faint :: (rising ++ [after]))

/-- A clip that goes down to faint during its last `duration` milliseconds. -/
def fadeOut (c : Clip) (duration : Number) : Except Fault Clip := do
  let stop := Number.int (← c.ms)
  let start ← Number.sub stop duration
  let before ← c.upTo start
  let falling ← c.ramp start stop duration 1 (faint - 1)
  let after ← c.onward stop
  return c.appendSamples (before :: (falling ++ [after.scale faint]))

end Radioplay.Sound.Clip
