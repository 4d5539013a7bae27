import Radioplay.Value

/-! What a script holds: the seed it declares and its events in order. -/

namespace Radioplay

/-- An event. A script that was not read from text may leave characters and states out. -/
inductive Event where
  | location (name : String)
  | text (character state : Option String) (words : String)
  /-- A beat; without a duration it lasts as long as the settings say. -/
  | pause (character state : Option String) (duration : Option Value)
  | shot (name : String)
  deriving Inhabited

structure Script where
  seed : Option Int
  events : List Event
  deriving Inhabited

/-- The state of a character that has not been given one. -/
def defaultState : String := "neutral"

/-- A text, or nothing. -/
def Value.ofText? : Option String → Value
  | some s => .str s
  | none => .null

namespace Event

def isText : Event → Bool
  | .text .. => true
  | _ => false

def fields : Event → List (String × Value)
  | .location name => [("type", .str "location"), ("location", .str name)]
  | .text character state words =>
    [("type", .str "text"), ("character", .ofText? character), ("state", .ofText? state),
      ("text", .str words)]
  | .pause character state duration =>
    [("type", .str "pause"), ("character", .ofText? character), ("state", .ofText? state)] ++
      match duration with
      | some d => [("duration", d)]
      | none => []
  | .shot name => [("type", .str "shot"), ("shot", .str name)]

end Event

namespace Script

def toValue (s : Script) : Value :=
  .obj
    [("seed", match s.seed with | some n => .int n | none => .null),
      ("events", .arr (s.events.map fun e => .obj e.fields))]

end Script

end Radioplay
