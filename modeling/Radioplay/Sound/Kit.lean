import Radioplay.Sound.Raw

/-! What is done with sound by others. The program itself only decides which files are decoded, what
is cut out of a clip, where it is faded and onto what it is laid; a kit does it. Whatever is stated
of the program holds with any kit, and what it relies on in a kit is a hypothesis of its own. -/

namespace Radioplay.Sound

/-- What becomes of the content of a file. -/
inductive Decoded where
  | sound (raw : Wave.Raw)
  /-- The file is in no form that can be decoded, or what decodes it cannot be had. -/
  | unreadable
  /-- The decoding has failed in a way that nobody expects. -/
  | failed (fault : Fault)
  deriving DecidableEq

class Kit where
  /-- Decodes a file; all that counts are its path and its content. -/
  decode : (path : String) → (content : List UInt8) → Decoded
  /-- The length of what has been decoded, in seconds. -/
  seconds : {α : Type} → [Quantity α] → Wave.Raw → Except Fault α
  /-- Silence in one channel; the duration is in milliseconds. -/
  silent : (duration : Number) → (rate : Nat) → Except Fault Clip
  /-- The length of a clip, in milliseconds. -/
  ms : Clip → Except Fault Int
  /-- The stretch between two times in milliseconds. -/
  cut : Clip → (start stop : Number) → Except Fault Clip
  fadeIn : Clip → (duration : Number) → Except Fault Clip
  fadeOut : Clip → (duration : Number) → Except Fault Clip
  /-- Lays a clip over another, which keeps its length, from a time on. -/
  overlay : (bed clip : Clip) → (position : Number) → Except Fault Clip

/-- A kit tells the length of a sound by its frames: it lasts as long as they do at its rate. -/
structure Kit.CountsFrames [Kit] : Prop where
  seconds_eq : ∀ {α : Type} [Quantity α] (raw : Wave.Raw),
    (Kit.seconds raw : Except Fault α) = raw.seconds

end Radioplay.Sound
