import Radioplay.Manifest
import Radioplay.Script

/-! The clip of a character in a state, by a manifest: the first audio file of the state, else of
the character's neutral state. Names are looked up in lower case. A manifest may hold anything, so
every step asks for what it needs of it. -/

namespace Radioplay.Manifest

/-- Warnings, in the order in which they are given. -/
abbrev Warnings := List String

def warn (message : String) : Act Warnings Unit := modify (· ++ [message])

/-- A field of a value, or what stands for it where the value lacks it. -/
def fieldOr (v : Value) (key : String) (other : Value) : Except Fault Value := do
  let found ← v.field? key
  return found.getD other

/-- The first item of a list, or the first character of a text. -/
def firstItem : Value → Except Fault Value
  | .arr (v :: _) => .ok v
  | .str s =>
    match s.toList with
    | c :: _ => .ok (.str (String.singleton c))
    | [] => .error .noSuchKey
  | .obj _ => .error .noSuchKey
  | _ => .error .wrongKind

/-- The path of an audio file of a state. -/
def audioPath (assets character state : String) (name : Value) : Except Fault String :=
  match name with
  | .str s => .ok (Path.join assets ["characters", character, "states", state, "audio", s])
  | _ => .error .wrongKind

/-- The path of a state's first audio file, none where it has none. -/
def firstAudio? (assets character state : String) (data : Value) : Except Fault (Option String) :=
  if !data.isTruthy then .ok none
  else do
    let audio ← fieldOr data "audio" .null
    if !audio.isTruthy then return none
    else
      let name ← firstItem audio
      let path ← audioPath assets character state name
      return some path

/-- The clip of a character in a state, with warnings where it is not the one asked for. -/
def resolve (manifest : Value) (assets character state : String) :
    Act Warnings (Option String) := do
  let characterKey := Text.lower character
  let stateKey := Text.lower state
  let characters ← Act.ofExcept (fieldOr manifest "characters" (.obj []))
  let data ← Act.ofExcept (fieldOr characters characterKey .null)
  if !data.isTruthy then
    warn ("Character not found in manifest: " ++ character)
    return none
  else
    let states ← Act.ofExcept (fieldOr data "states" (.obj []))
    let stateData ← Act.ofExcept (fieldOr states stateKey .null)
    match ← Act.ofExcept (firstAudio? assets characterKey stateKey stateData) with
    | some path => return some path
    | none =>
      match stateData with
      | .null => warn ("State not found for " ++ character ++ ": " ++ state)
      | _ => warn ("No audio files for " ++ character ++ "/" ++ state)
      let neutral ← Act.ofExcept (fieldOr states defaultState .null)
      let fallback ←
        if stateKey = defaultState then pure none
        else Act.ofExcept (firstAudio? assets characterKey defaultState neutral)
      match fallback with
      | some path => return some path
      | none =>
        warn ("No neutral fallback audio for " ++ character)
        return none

end Radioplay.Manifest
