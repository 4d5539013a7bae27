import Radioplay.Sound.Raw

/-! Sound files: a row of chunks after twelve bytes of head, among them one that gives the format
and at last one that holds the samples. Only plain samples are read. -/

namespace Radioplay.Sound.Wave

/-- The number that bytes give, the least significant first. -/
def littleEndian (bytes : List UInt8) : Nat := bytes.foldr (fun b n => b.toNat + 256 * n) 0

structure Chunk where
  name : List UInt8
  size : Nat
  /-- The bytes from the chunk's content to the end of the file. -/
  content : List UInt8

def formatName : List UInt8 := [0x66, 0x6D, 0x74, 0x20]

def dataName : List UInt8 := [0x64, 0x61, 0x74, 0x61]

/-- The first `fuel` chunks, up to the one with the samples. -/
def chunksOf : (fuel : Nat) → List UInt8 → List Chunk
  | 0, _ => []
  | fuel + 1, bytes =>
    if (bytes.drop 7).isEmpty then []
    else
      let c : Chunk := ⟨bytes.take 4, littleEndian ((bytes.drop 4).take 4), bytes.drop 8⟩
      if c.name = dataName then [c] else c :: chunksOf fuel (c.content.drop c.size)

/-- The bytes of a sample of three as one of four, whose new lowest byte is all ones in a negative
one; fewer bytes make no sample. -/
def widenBytes : List UInt8 → List UInt8
  | [a, b, c] => [if 0x7F < c then 0xFF else 0, a, b, c]
  | _ => []

/-- Samples as they are kept in memory. Those of one byte stand in a file without a sign, counted
from the lowest, and those of three bytes become samples of four. -/
def toMemory (channels rate width : Nat) (bytes : List UInt8) : Raw :=
  if width = 1 then ⟨channels, rate, 1, bytes.map (· + 128)⟩
  else if width = 3 then ⟨channels, rate, 4, (chunks 3 bytes).flatMap widenBytes⟩
  else ⟨channels, rate, width, bytes⟩

/-- The contents of a sound file; no more than ten chunks are looked at. -/
def read? (file : List UInt8) : Option Raw := do
  let chunks := chunksOf 10 (file.drop 12)
  let format ← chunks.find? fun c => c.name == formatName
  let samples ← chunks.getLast?
  if format.size < 16 ∨ (format.content.drop 15).isEmpty ∨ samples.name ≠ dataName then none
  else
    let number (i n : Nat) := littleEndian ((format.content.drop i).take n)
    let width := number 14 2 / 8
    let bytes := samples.content.take samples.size
    if number 0 2 ≠ 1 ∧ number 0 2 ≠ 0xFFFE then none
    else if width = 3 ∧ bytes.isEmpty then none
    else some (toMemory (number 2 2) (number 4 4) width bytes)

end Radioplay.Sound.Wave
