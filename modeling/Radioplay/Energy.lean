import Radioplay.Energy.Squares
import Radioplay.Energy.Threshold

/-! Where a clip is quiet. The samples are cut into windows of equal length, the last of which may
be shorter; the start of each window whose loudness is below the threshold is a point where playing
may start or stop. -/

namespace Radioplay.Energy

open Quantity

attribute [local instance (high)] instPowNat

variable {α : Type} [Quantity α]

/-- The number of samples in a window. -/
def windowLength (rate windowMs : Value) : Except Fault Int := do
  let perSecond ← (ofValue rate : Except Fault α)
  let ms ← ofValue windowMs
  let scaled ← mul perSecond ms
  let length ← div scaled (ofInt 1000)
  floor length

/-- Is the root mean square of a window below a threshold? -/
def isLow (window : List α) (threshold : α) : Except Fault Bool := do
  let squares ← sumSquares window
  rootMeanBelow squares window.length threshold

/-- The starts, in seconds, of the windows below their thresholds; the first given is number `k`. -/
def lowStarts (rate : α) (w : Nat) : (k : Nat) → List (List α × α) → Except Fault (List α)
  | _, [] => .ok []
  | k, (window, threshold) :: rest => do
    let low ← isLow window threshold
    let points ← lowStarts rate w (k + 1) rest
    if low then
      let start ← div (ratio (k * w : Nat) 1) rate
      return start :: points
    else return points

/-- How a message shows a setting. -/
def settingText : Value → String
  | .bool b => if b then "True" else "False"
  | v =>
    match v.toNumber with
    | .ok x => x.text
    | .error _ => ""

/-- Windows are counted in words of 64 bits with a sign. -/
def windowLimit : Int := 2 ^ (63 : Nat)

/-- The quiet points of a clip. A window of no samples is a fault, whatever the samples. -/
def profile (samples : List α) (rate windowMs threshold : Value) : Except Fault (List α) := do
  let w ← windowLength (α := α) rate windowMs
  if w ≤ 0 then throw (.windowTooSmall (settingText windowMs) (settingText rate))
  else if samples.isEmpty then return []
  else if windowLimit ≤ w then throw .wrongKind
  else
    let windows := Sound.chunks w.toNat samples
    let thresholds ← limits threshold windows.length
    lowStarts (← ofValue rate) w.toNat 0 (windows.zip thresholds)

end Radioplay.Energy
