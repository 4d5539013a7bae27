import Radioplay.Sound.Clip

/-! Sound as it is kept once it has been read from a file: its form, and the bytes of its
samples. -/

namespace Radioplay.Sound.Wave

attribute [local instance (high)] instPowNat

/-- A number of `width` bytes read as a signed one. -/
def signed (width n : Nat) : Int :=
  if 2 ^ (8 * width - 1) ≤ n then (n : Int) - 2 ^ (8 * width) else n

/-- A byte taken into the sample that is being put together, the least significant first; whole
samples come last first. -/
def takeByte (width : Nat) : Nat × Nat × List Int → UInt8 → Nat × Nat × List Int
  | (count, value, done), b =>
    let value := value + b.toNat * 256 ^ count
    if count + 1 = width then (0, 0, signed width value :: done) else (count + 1, value, done)

/-- The whole samples in a run of bytes. -/
def samplesOf (width : Nat) (bytes : List UInt8) : List Int :=
  (bytes.foldl (takeByte width) (0, 0, [])).2.2.reverse

structure Raw where
  channels : Nat
  /-- Frames in a second. -/
  rate : Nat
  /-- Bytes in a sample. -/
  width : Nat
  /-- The samples with their signs, frame by frame and in a frame channel by channel. -/
  bytes : List UInt8
  deriving DecidableEq, Inhabited

namespace Raw

/-- The number of whole frames. -/
def frames (r : Raw) : Except Fault Nat :=
  if r.channels * r.width = 0 then .error .divisionByZero
  else .ok (r.bytes.length / (r.channels * r.width))

/-- How many seconds the whole frames last at the rate, none at no rate. -/
def seconds {α : Type} [Quantity α] (r : Raw) : Except Fault α :=
  if r.rate = 0 then .ok (Quantity.ratio 0 1)
  else do
    let n ← r.frames
    return Quantity.ratio n r.rate

/-- The length in milliseconds. -/
def ms (r : Raw) : Except Fault Int := do
  let n ← r.frames
  Clip.msOf n r.rate

/-- The samples as numbers, of which the last frame may lack some. -/
def clip (r : Raw) : Except Fault Clip :=
  if !Clip.isNumberWidth r.width then .error .noSuchKey
  else if r.bytes.length % r.width ≠ 0 then .error .badShape
  else .ok ⟨r.rate, r.channels, r.width, (samplesOf r.width r.bytes).toArray⟩

end Raw

end Radioplay.Sound.Wave
