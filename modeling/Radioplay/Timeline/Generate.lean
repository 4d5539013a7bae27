import Radioplay.Act
import Radioplay.Timeline
import Radioplay.Timing
import Radioplay.Window
import Radioplay.Text.Blank

/-! Timelines from scripts. First every line of dialogue is given a clip and all clips are loaded;
then the events are walked on a running clock, with a gap before a line where the speaker, or the
same speaker's state, has changed since the last one. A location clears that memory. -/

namespace Radioplay

/-- What a timeline is made with: where clips are found, loaded and measured. -/
structure Studio (σ α : Type) where
  /-- The clip of a character in a state. -/
  resolve : (character : Option String) → (state : String) → Act σ (Option String)
  /-- Loads clips, in order, up to the first that fails. -/
  preload : List String → Act σ Unit
  /-- The length of a loaded clip. -/
  duration : String → Act σ α
  /-- The quiet points of a loaded clip. -/
  points : String → Act σ (List α)

namespace Timeline

open Quantity

/-- The seed of a script that declares none, or zero. -/
def defaultSeed : Int := 12345

def seedOf (script : Script) : Int :=
  match script.seed with
  | some n => if n = 0 then defaultSeed else n
  | none => defaultSeed

/-- An empty state is the default one, like a state left out. -/
def stateOf (state : Option String) : String :=
  match state with
  | some s => if s.isEmpty then defaultState else s
  | none => defaultState

/-- How long a line takes to say. -/
def estimate (words : List Char) (msPerWord minDurationMs : Value) : Except Fault Value := do
  let spoken ← Value.times (Text.wordCount words) msPerWord
  minDurationMs.greater spoken

/-- Who spoke last, and in what state; nobody where that character has no name. -/
abbrev Speaker := Option (String × String)

def gap (timing : Timing) (last : Speaker) (character : Option String) (state : String) : Value :=
  match last with
  | none => .int 0
  | some (character', state') =>
    if some character' ≠ character then timing.speakerGapMs
    else if state' ≠ state then timing.stateChangeGapMs
    else .int 0

section

variable {σ α : Type}

/-- A clip for each event: asked for once for every line of dialogue, in order. -/
def collect (studio : Studio σ α) : List Event → Act σ (List (Option String))
  | [] => return []
  | .text character state _ :: rest => do
    let path ← studio.resolve character (stateOf state)
    let paths ← collect studio rest
    return path :: paths
  | _ :: rest => do
    let paths ← collect studio rest
    return none :: paths

/-- The paths that name a clip. -/
def named (paths : List (Option String)) : List String :=
  paths.filterMap fun p => p.filter fun s => !s.isEmpty

variable [Quantity α]

/-- A stretch of a clip for a line of the given duration, with one draw. -/
def voiceFor (studio : Studio σ α) (timing : Timing) (path : String) (duration : Value)
    (g : Generator) : Act σ (Voice α × Generator) := do
  let clip ← studio.duration path
  let target ← Act.ofExcept do
    let ms ← (ofValue duration : Except Fault α)
    div ms (ofInt 1000)
  let points ← studio.points path
  let ((start, length), g) ←
    Act.ofExcept (Window.pick clip target points g timing.energySearchRange)
  return (⟨path, start, length⟩, g)

/-- What the walk over the events carries on. -/
structure Clock where
  now : Number
  last : Speaker
  generator : Generator

def Clock.start (g : Generator) : Clock := ⟨.int 0, none, g⟩

/-- The entry of one event, and the clock with its memory before the entry has passed. -/
def enter (studio : Studio σ α) (timing : Timing) (clock : Clock) :
    Event → Option String → Act σ (Entry α × Clock)
  | .text character state words, path => do
    let state' := stateOf state
    let now ← Act.ofExcept do
      let wait ← (gap timing clock.last character state').toNumber
      Number.add clock.now wait
    let duration ← Act.ofExcept (estimate words.toList timing.msPerWord timing.minDurationMs)
    let event := Event.text character state words
    let last := character.map fun c => (c, state')
    match path.filter fun s => !s.isEmpty with
    | none => return (⟨event, duration, now, none⟩, ⟨now, last, clock.generator⟩)
    | some path =>
      let (voice, g) ← voiceFor studio timing path duration clock.generator
      return (⟨event, duration, now, some voice⟩, ⟨now, last, g⟩)
  | .pause character state d, _ =>
    let duration :=
      match d with
      | some d => if d.isTruthy then d else timing.pauseDurationMs
      | none => timing.pauseDurationMs
    return (⟨.pause character state d, duration, clock.now, none⟩, clock)
  | .location name, _ =>
    let entry : Entry α := ⟨.location name, timing.locationDurationMs, clock.now, none⟩
    return (entry, { clock with last := none })
  | .shot name, _ => return (⟨.shot name, .int 0, clock.now, none⟩, clock)

/-- Walks the events, each with its clip. -/
def walk (studio : Studio σ α) (timing : Timing) (clock : Clock) :
    List (Event × Option String) → Act σ (List (Entry α) × Clock)
  | [] => return ([], clock)
  | (event, path) :: rest => do
    let (entry, clock) ← enter studio timing clock event path
    let now ← Act.ofExcept entry.finish
    let (entries, clock) ← walk studio timing { clock with now := now } rest
    return (entry :: entries, clock)

/-- The timeline of a script, and the generator as the draws have left it. Without a generator of
its own the script's seed starts one. -/
def generate (studio : Studio σ α) (timing : Timing) (script : Script)
    (generator : Option Generator) : Act σ (Timeline α × Generator) := do
  let seed := seedOf script
  let paths ← collect studio script.events
  studio.preload (named paths).eraseDups
  let (entries, clock) ←
    walk studio timing (.start (generator.getD (.ofSeed seed))) (script.events.zip paths)
  return (⟨seed, clock.now, entries⟩, clock.generator)

end

end Timeline

end Radioplay
