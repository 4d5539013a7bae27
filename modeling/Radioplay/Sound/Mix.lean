import Radioplay.Sound.Clip

/-! Laying one clip over another. Both are first brought to the larger number of channels, the
higher rate and the larger width; then their samples are added. -/

namespace Radioplay.Sound.Clip

attribute [local instance (high)] instPowNat

/-- One channel repeated, or as many channels as there are. -/
def toChannels (c : Clip) (n : Nat) : Except Fault Clip :=
  if n = c.channels then .ok c
  else if c.channels = 1 then
    .ok { c with channels := n, samples := c.samples.flatMap fun x => Array.replicate n x }
  else .error .badShape

/-- The whole part of a double, nothing where it has none. -/
def wholePart (x : Float) : Int :=
  match Binary64.parts? x with
  | some p => p.trunc
  | none => 0

/-- A frame between two others, the fraction `d / b` before the later one; doubles hold it on the
way. -/
def blend (b d : Int) (earlier later : List Int) : List Int :=
  List.zipWith
    (fun p q => wholePart ((Float.ofInt p * Float.ofInt d + Float.ofInt q * Float.ofInt (b - d)) /
      Float.ofInt b))
    earlier later

/-- Takes one frame in at the rate `a` and gives out what falls due at the rate `b`. The count `d`
is negative between frames; frames given out are kept last first. -/
def takeFrame (a b : Int) : Int × List Int × List (List Int) → List Int →
    Int × List Int × List (List Int)
  | (d, last, out), next =>
    let d := d + b
    let n : Nat := if d < 0 then 0 else (Int.fdiv d a).toNat + 1
    let due := (List.range n).map fun (i : Nat) => blend b (d - i * a) last next
    (d - n * a, next, due.reverse ++ out)

/-- Samples of 32 bits at another rate. -/
def resample (channels rate rate' : Nat) (samples : List Int) : Array Int :=
  let g := Nat.gcd rate rate'
  let a : Int := (rate / g : Nat)
  let b : Int := (rate' / g : Nat)
  let (_, _, out) := (chunks channels samples).foldl (takeFrame a b)
    (-b, List.replicate channels 0, [])
  (out.reverse.flatten).toArray

/-- Rates from here on cannot be converted. -/
def rateLimit : Nat := 2 ^ (31 : Nat)

def toRate (c : Clip) (rate : Nat) : Except Fault Clip :=
  if rate = c.rate then .ok c
  else if c.samples.isEmpty then .ok { c with rate := rate }
  else if rateLimit ≤ c.rate ∨ rateLimit ≤ rate then .error .overflow
  else
    let unit : Int := 2 ^ (32 - 8 * c.width)
    .ok { c with
      rate := rate
      samples := (resample c.channels c.rate rate (c.samples.toList.map (· * unit))).map
        fun x => Int.fdiv x unit }

def toWidth (c : Clip) (width : Nat) : Clip :=
  if width = c.width then c
  else
    { c with
      width := width
      samples := c.samples.map fun x =>
        Int.fdiv (x * 2 ^ (32 - 8 * c.width)) (2 ^ (32 - 8 * width)) }

/-- Two clips in one form. -/
def matched (c d : Clip) : Except Fault (Clip × Clip) := do
  let channels := max c.channels d.channels
  let rate := max c.rate d.rate
  let width := max c.width d.width
  let c ← (← c.toChannels channels).toRate rate
  let d ← (← d.toChannels channels).toRate rate
  return (c.toWidth width, d.toWidth width)

/-- The sum of two samples, within what the width holds. -/
def addSamples (width : Nat) (x y : Int) : Int :=
  max (lowest width) (min (highest width) (x + y))

/-- Lays a clip over another, which keeps its length, from the time `position` on. -/
def overlay (bed clip : Clip) (position : Number) : Except Fault Clip := do
  let (bed, clip) ← matched bed clip
  let before ← bed.upTo position
  let under ← bed.onward position
  let added := Array.zipWith (addSamples bed.width) under.samples clip.samples
  let rest := under.samples.extract added.size under.samples.size
  return { bed with samples := before.samples ++ added ++ rest }

end Radioplay.Sound.Clip
