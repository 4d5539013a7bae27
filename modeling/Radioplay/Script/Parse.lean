import Radioplay.Script
import Radioplay.Script.Tag
import Radioplay.Script.Line
import Radioplay.Table

/-! Scripts from text. Each line is cleaned and taken by its shape; a character's state holds from
the tag that gives it, across lines, until another tag of that character changes it. -/

namespace Radioplay

open Text

namespace Tag

/-- The state after a tag. -/
def stateAfter (state : String) : Tag → String
  | .state name => name
  | _ => state

/-- The events of a tag, met in a state. -/
def events (character state : String) : Tag → List Event
  | .shot name => [.shot name]
  | .pause => [.pause (some character) (some state) none]
  | _ => []

end Tag

namespace Script

/-- The event of a stretch of plain text, unless nothing but white space is in it. -/
def plainEvents (character state : String) (s : List Char) : List Event :=
  let t := trim s
  if t.isEmpty then [] else [.text (some character) (some state) (String.ofList t)]

/-- The events of the tags and the texts after them, and the state in force after the last. -/
def tailEvents (character : String) :
    (state : String) → List (List Char × List Char) → List Event × String
  | state, [] => ([], state)
  | state, (content, plain) :: rest =>
    let tag := Tag.classify content
    let after := tag.stateAfter state
    let (events, last) := tailEvents character after rest
    (tag.events character state ++ (plainEvents character after plain ++ events), last)

/-- The events of a line of dialogue, and the state in force at its end. -/
def dialogue (character state : String) (text : List Char) : List Event × String :=
  let segments := Segments.ofText text
  let (events, last) := tailEvents character state segments.tail
  (plainEvents character state segments.head ++ events, last)

/-- What is carried from line to line. -/
structure Reading where
  seed : Option Int
  states : Table String
  deriving Inhabited

def Reading.start : Reading := ⟨none, []⟩

def Reading.state (r : Reading) (character : String) : String :=
  (r.states.get? character).getD defaultState

def digitsValue (ds : List Char) : Nat := ds.foldl (fun n c => n * 10 + (c.toNat - 48)) 0

/-- The number of a seed line; a numeral with too many digits is a fault. -/
def seedValue (digits : List Char) : Except Fault Int :=
  if digitLimit < digits.length then .error (.numeralTooLong digits.length)
  else .ok (digitsValue digits)

/-- Takes one line: a later seed replaces an earlier one. -/
def readLine (r : Reading) : Line → Except Fault (List Event × Reading)
  | .blank | .comment | .other => .ok ([], r)
  | .seed digits =>
    match seedValue digits with
    | .ok n => .ok ([], { r with seed := some n })
    | .error fault => .error fault
  | .location name => .ok ([.location (String.ofList name)], r)
  | .dialogue character text =>
    let name := String.ofList character
    let (events, last) := dialogue name (r.state name) text
    .ok (events, { r with states := r.states.put name last })

def readLines (r : Reading) : List Line → Except Fault (List Event × Reading)
  | [] => .ok ([], r)
  | line :: rest =>
    match readLine r line with
    | .error fault => .error fault
    | .ok (events, r) =>
      match readLines r rest with
      | .error fault => .error fault
      | .ok (more, r) => .ok (events ++ more, r)

/-- The script that a text stands for. -/
def parse (text : List Char) : Except Fault Script :=
  match readLines .start ((lines text).map Line.ofRaw) with
  | .ok (events, r) => .ok ⟨r.seed, events⟩
  | .error fault => .error fault

end Script

end Radioplay
