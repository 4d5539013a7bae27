import Radioplay.Table
import Radioplay.Value
import Radioplay.Text.Lowercase

/-! The settings of an episode's timing. Settings are taken as they are given and are not checked
until they are used. -/

namespace Radioplay

/-- One value for each setting: milliseconds, a loudness and a number of seconds. -/
structure Timing where
  msPerWord : Value := .int 300
  minDurationMs : Value := .int 500
  pauseDurationMs : Value := .int 800
  speakerGapMs : Value := .int 200
  stateChangeGapMs : Value := .int 100
  locationDurationMs : Value := .int 0
  energyWindowMs : Value := .int 100
  energyThreshold : Value := .float 0.01
  energySearchRange : Value := .float 0.2
  deriving Inhabited

inductive Setting where
  | msPerWord
  | minDurationMs
  | pauseDurationMs
  | speakerGapMs
  | stateChangeGapMs
  | locationDurationMs
  | energyWindowMs
  | energyThreshold
  | energySearchRange
  deriving DecidableEq, Repr

namespace Setting

def all : List Setting :=
  [msPerWord, minDurationMs, pauseDurationMs, speakerGapMs, stateChangeGapMs, locationDurationMs,
    energyWindowMs, energyThreshold, energySearchRange]

def name : Setting → String
  | msPerWord => "ms_per_word"
  | minDurationMs => "min_duration_ms"
  | pauseDurationMs => "pause_duration_ms"
  | speakerGapMs => "speaker_gap_ms"
  | stateChangeGapMs => "state_change_gap_ms"
  | locationDurationMs => "location_duration_ms"
  | energyWindowMs => "energy_window_ms"
  | energyThreshold => "energy_threshold"
  | energySearchRange => "energy_search_range"

/-- Capitals start new words, except at the very front. -/
def splitCapitals : List Char → List Char
  | [] => []
  | c :: cs => if c.isUpper then '_' :: c :: splitCapitals cs else c :: splitCapitals cs

/-- A key with its words joined by underscores, in lower case. -/
def normalKey (key : String) : String :=
  match key.toList with
  | [] => ""
  | c :: cs => Text.lower (String.ofList (c :: splitCapitals cs))

/-- The setting that a key names, in either spelling. -/
def ofKey? (key : String) : Option Setting :=
  let name := normalKey key
  all.find? fun s => s.name == name

end Setting

namespace Timing

def get (t : Timing) : Setting → Value
  | .msPerWord => t.msPerWord
  | .minDurationMs => t.minDurationMs
  | .pauseDurationMs => t.pauseDurationMs
  | .speakerGapMs => t.speakerGapMs
  | .stateChangeGapMs => t.stateChangeGapMs
  | .locationDurationMs => t.locationDurationMs
  | .energyWindowMs => t.energyWindowMs
  | .energyThreshold => t.energyThreshold
  | .energySearchRange => t.energySearchRange

def set (t : Timing) (v : Value) : Setting → Timing
  | .msPerWord => { t with msPerWord := v }
  | .minDurationMs => { t with minDurationMs := v }
  | .pauseDurationMs => { t with pauseDurationMs := v }
  | .speakerGapMs => { t with speakerGapMs := v }
  | .stateChangeGapMs => { t with stateChangeGapMs := v }
  | .locationDurationMs => { t with locationDurationMs := v }
  | .energyWindowMs => { t with energyWindowMs := v }
  | .energyThreshold => { t with energyThreshold := v }
  | .energySearchRange => { t with energySearchRange := v }

theorem get_set (t : Timing) (v : Value) (s s' : Setting) :
    (t.set v s).get s' = if s' = s then v else t.get s' := by
  cases s <;> cases s' <;> rfl

/-- Takes one key; a key that names no setting is passed over. -/
def take (t : Timing) (key : String) (v : Value) : Timing :=
  match Setting.ofKey? key with
  | some s => t.set v s
  | none => t

/-- The settings of a table, the last key of a setting deciding. -/
def ofTable (t : Table Value) : Timing := t.foldl (fun timing (key, v) => timing.take key v) {}

end Timing

end Radioplay
