import Radioplay.Sound.Fade
import Radioplay.Sound.Kit
import Radioplay.Sound.Mix
import Radioplay.Sound.Wave
import Radioplay.Text.Lowercase

/-! The kit that needs no other program: it reads plain sound files alone. -/

namespace Radioplay.Sound

/-- Does a path end, whatever its case, in an extension? -/
def isNamed (extension path : String) : Bool :=
  extension.toList.isSuffixOf (Text.lower path).toList

/-- The sound in a file. Bare samples do not tell what they are, and of the rest only sound files
named as such are read. -/
def decodePlain (path : String) (content : List UInt8) : Decoded :=
  if isNamed ".wav" path then
    match Wave.read? content with
    | some raw => .sound raw
    | none => .unreadable
  else if isNamed ".raw" path || isNamed ".pcm" path then .failed .noSuchKey
  else .unreadable

instance plainKit : Kit where
  decode := decodePlain
  seconds raw := raw.seconds
  silent := Clip.silent
  ms := Clip.ms
  cut := Clip.cut
  fadeIn := Clip.fadeIn
  fadeOut := Clip.fadeOut
  overlay := Clip.overlay

theorem plainKit_countsFrames : Kit.CountsFrames := ⟨fun _ => rfl⟩

end Radioplay.Sound
