import Radioplay.Quantity
import Radioplay.Sound.Chunk

/-! Decoded sound: signed samples, frame by frame and in a frame channel by channel. A clip is
measured in seconds and, for cutting, in whole milliseconds; a cut that reaches a little past the
last frame is filled up with silence. -/

namespace Radioplay.Sound

attribute [local instance (high)] instPowNat

structure Clip where
  /-- Frames in a second. -/
  rate : Nat
  channels : Nat
  /-- Bytes in a sample. -/
  width : Nat
  samples : Array Int
  deriving DecidableEq, Repr, Inhabited

namespace Clip

def frames (c : Clip) : Nat := c.samples.size / c.channels

/-- A whole number rounded to the 24 binary digits of a single word, ties to even. -/
def roundSingle (n : Int) : Int :=
  let size := n.natAbs.log2
  if size < 24 then n
  else
    let unit := 2 ^ (size - 23)
    let m : Int := Binary64.quotientEven n.natAbs unit * unit
    if n < 0 then -m else m

/-- Is every frame whole? -/
def isWhole (c : Clip) : Bool := c.channels ≤ 1 || c.samples.size % c.channels == 0

/-- The samples of the first channel. -/
def firstChannel (c : Clip) : List Int :=
  if c.channels ≤ 1 then c.samples.toList
  else (c.samples.toList.zipIdx.filter fun p => p.2 % c.channels == 0).map fun p => p.1

/-- What a sample of full loudness counts. -/
def fullScale (c : Clip) : Nat := 2 ^ (8 * c.width - 1)

/-- The first channel as fractions of full loudness. -/
def loudness {α : Type} [Quantity α] (c : Clip) : Except Fault (List α) :=
  if c.isWhole then .ok (c.firstChannel.map fun x => Quantity.ratio (roundSingle x) c.fullScale)
  else .error .badShape

/-- How many milliseconds frames last, to the nearest. -/
def msOf (frames rate : Nat) : Except Fault Int := do
  let s ← Number.div (.int frames) (.int rate)
  let t ← Number.mul (.int 1000) s
  t.round

/-- The length in milliseconds. -/
def ms (c : Clip) : Except Fault Int := msOf c.frames c.rate

/-- Frames in a millisecond. -/
def framesPerMs (c : Clip) : Except Fault Number := Number.div (.int c.rate) (.float 1000)

/-- The frame, counted with its fraction, at a time. -/
def frameAt (c : Clip) (time : Number) : Except Fault Number := do
  let per ← c.framesPerMs
  Number.mul time per

/-- The number of the frame at a time, which is taken from the end where it is negative. -/
def frameNumber (c : Clip) (time : Number) : Except Fault Int := do
  let len ← c.ms
  let time ← if Number.lt time (.int 0) then Number.add (.int len) time else pure time
  let frame ←
    if Number.order? time (.float (Binary64.infinity false)) == some .eq then c.frameAt (.int len)
    else c.frameAt time
  frame.trunc

/-- A bound on a sequence of `n`: counted from its end where negative, and kept within it. -/
def boundIn (n : Nat) (i : Int) : Nat := if i < 0 then (n + i).toNat else min n i.toNat

/-- The widest samples that can be computed with, in bytes. -/
def widest : Nat := 4

/-- The frames between two bounds, with silence for those that are past the end. Where nothing is
left there is nothing to be silent after; more than two milliseconds of silence are a fault. -/
def between (c : Clip) (first last : Int) : Except Fault Clip := do
  let lo := boundIn c.frames first
  let hi := boundIn c.frames last
  let got := hi - lo
  let part := c.samples.extract (lo * c.channels) (hi * c.channels)
  let lacking : Int := last - first - got
  if lacking = 0 then return { c with samples := part }
  else
    let most ← c.frameAt (.int 2)
    if Number.lt most (.int lacking) then throw .tooMuchSilence
    else if widest < c.width then throw .badWidth
    else if got = 0 then return { c with samples := #[] }
    else return { c with samples := part ++ Array.replicate (lacking.toNat * c.channels) 0 }

/-- The stretch between two times, as they stand. -/
def stretch (c : Clip) (start stop : Number) : Except Fault Clip := do
  let first ← c.frameNumber start
  let last ← c.frameNumber stop
  c.between first last

/-- The stretch between two times, which count as the end where they are past it. -/
def cut (c : Clip) (start stop : Number) : Except Fault Clip := do
  let len ← c.ms
  c.stretch (Quantity.lesser start (.int len)) (Quantity.lesser stop (.int len))

/-- The stretch from the front to a time. -/
def upTo (c : Clip) (stop : Number) : Except Fault Clip := c.cut (.int 0) stop

/-- The stretch from a time to the end. -/
def onward (c : Clip) (start : Number) : Except Fault Clip := do
  let len ← c.ms
  c.cut start (.int len)

/-- The largest and the smallest sample of a width. -/
def highest (width : Nat) : Int := 2 ^ (8 * width - 1) - 1

def lowest (width : Nat) : Int := -(2 ^ (8 * width - 1))

/-- The most frames of silence that there is memory for, and the most that can be counted. -/
def silenceLimit : Int := 2 ^ (32 : Nat)

def countLimit : Int := 2 ^ (62 : Nat)

/-- Silence in one channel of two bytes. -/
def silent (duration : Number) (rate : Nat) : Except Fault Clip := do
  let seconds ← Number.div duration (.float 1000)
  let count ← Number.mul (.int rate) seconds
  let n ← count.trunc
  if countLimit ≤ n then throw .overflow
  else if silenceLimit < n then throw .outOfMemory
  else return ⟨rate, 1, 2, Array.replicate n.toNat 0⟩

/-- A sample of three bytes as one of four: the new lowest byte is all ones in a negative one. -/
def widen (x : Int) : Int := x * 256 + if x < 0 then 255 else 0

/-- A clip of samples, which have to fill whole frames. Samples of three bytes become samples of
four. -/
def ofSamples (rate channels width : Nat) (samples : Array Int) : Except Fault Clip :=
  if channels * width = 0 then .error .divisionByZero
  else if samples.size % channels ≠ 0 then .error .badShape
  else if width ≠ 3 then .ok ⟨rate, channels, width, samples⟩
  else if samples.isEmpty then .error .noSuchItem
  else .ok ⟨rate, channels, 4, samples.map widen⟩

/-- Is there a kind of whole number for samples of a width? -/
def isNumberWidth (width : Nat) : Bool := width == 1 || width == 2 || width == 4

/-- The samples as whole numbers. -/
def numbers (c : Clip) : Except Fault (Array Int) :=
  if isNumberWidth c.width then .ok c.samples else .error .noSuchKey

end Clip

end Radioplay.Sound
