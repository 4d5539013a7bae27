import Mathlib.Data.String.Basic
import Radioplay.Preview.Export
import Radioplay.Proofs.Outcome
import Radioplay.Proofs.Script.WellFormed

/-! What a timeline and the report of its preview tell, as values in their files. A timeline tells
it by its events, each with the fields of its kind; a report tells it by counts. Both tell the same
tally. -/

namespace Radioplay

/-! ## Fields of values -/

namespace Value

/-- What fields lead to in a value, one inside the other. -/
def at? (v : Value) : List String → Option Value
  | [] => some v
  | key :: rest =>
    match v.field? key with
    | .ok (some w) => w.at? rest
    | _ => none

theorem at?_obj (fields : Table Value) (key : String) :
    (Value.obj fields).at? [key] = fields.lookup key := by
  simp only [at?, field?]
  cases fields.lookup key <;> rfl

/-- Is this the value of a line of dialogue? -/
def isLine (v : Value) : Bool :=
  match v.at? ["type"] with
  | some (.str kind) => kind == "text"
  | _ => false

/-- Is this the value of an event that a clip plays with? -/
def isVoiced (v : Value) : Bool := (v.at? ["audioPath"]).isSome

end Value

namespace Entry

variable {e : Entry Number} {entries : List (Entry Number)} {v : Value} {values : List Value}

/-- The fields of an entry's clip. -/
def voiceFields (e : Entry Number) : Table Value :=
  match e.voice with
  | none => []
  | some v =>
    [("audioPath", .str v.path), ("audioStart", v.start.toValue),
      ("audioDuration", v.length.toValue)]

theorem toValue_eq_ok (h : e.toValue = .ok v) :
    ∃ finish : Number, v = .obj (Table.put "endTime" finish.toValue
      (Table.put "startTime" e.start.toValue (Table.put "duration" e.duration e.event.fields)) ++
        e.voiceFields) := by
  obtain ⟨finish, -, hValue⟩ := bind_eq_ok.mp h
  refine ⟨finish, ?_⟩
  rw [voiceFields]
  cases hVoice : e.voice with
  | none =>
    rw [hVoice] at hValue
    rw [List.append_nil]
    exact (Except.ok.inj hValue).symm
  | some voice =>
    rw [hVoice] at hValue
    exact (Except.ok.inj hValue).symm

/-- Apart from its times, an entry has the fields of its event and of its clip. -/
theorem at?_of_toValue (h : e.toValue = .ok v) {key : String}
    (hKey : key ∉ ["duration", "startTime", "endTime"]) :
    v.at? [key] = (e.event.fields.lookup key).or (e.voiceFields.lookup key) := by
  obtain ⟨finish, rfl⟩ := toValue_eq_ok h
  simp only [List.mem_cons, List.not_mem_nil, or_false, not_or] at hKey
  rw [Value.at?_obj, List.lookup_append]
  congr 1
  show Table.get? _ key = _
  rw [Table.get?_put, if_neg hKey.2.2, Table.get?_put, if_neg hKey.2.1, Table.get?_put,
    if_neg hKey.1]
  rfl

theorem isLine_of_toValue (h : e.toValue = .ok v) : v.isLine = e.event.isText := by
  have hVoice : e.voiceFields.lookup "type" = none := by
    rw [voiceFields]
    cases e.voice <;> rfl
  rw [Value.isLine, at?_of_toValue h (by decide), hVoice, Option.or_none]
  cases e.event <;> rfl

theorem isVoiced_of_toValue (h : e.toValue = .ok v) : v.isVoiced = e.voice.isSome := by
  have hEvent : e.event.fields.lookup "audioPath" = none := by
    cases e.event with
    | pause character state duration => cases duration <;> rfl
    | _ => rfl
  rw [Value.isVoiced, at?_of_toValue h (by decide), hEvent, Option.none_or, voiceFields]
  cases e.voice <;> rfl

theorem character_of_toValue (h : e.toValue = .ok v) :
    v.at? ["character"] = e.event.fields.lookup "character" := by
  have hVoice : e.voiceFields.lookup "character" = none := by
    rw [voiceFields]
    cases e.voice <;> rfl
  rw [at?_of_toValue h (by decide), hVoice, Option.or_none]

/-- What is seen of each value is what is seen of its entry. -/
theorem map_of_valuesOf {γ : Type} {p : Value → γ} {q : Entry Number → γ}
    (hSeen : ∀ e v, e.toValue = .ok v → p v = q e) (h : valuesOf entries = .ok values) :
    values.map p = entries.map q := by
  induction entries generalizing values with
  | nil =>
    obtain rfl := Except.ok.inj h
    rfl
  | cons e rest ih =>
    obtain ⟨v, hv, hRest⟩ := bind_eq_ok.mp h
    obtain ⟨vs, hvs, hEnd⟩ := bind_eq_ok.mp hRest
    obtain rfl := Except.ok.inj hEnd
    rw [List.map_cons, List.map_cons, hSeen e v hv, ih hvs]

theorem length_filter_of_valuesOf {p : Value → Bool} {q : Entry Number → Bool}
    (hSeen : ∀ e v, e.toValue = .ok v → p v = q e) (h : valuesOf entries = .ok values) :
    (values.filter p).length = (entries.filter q).length := by
  have hCount := congrArg (List.countP id) (map_of_valuesOf hSeen h)
  rw [List.countP_map, List.countP_map] at hCount
  rw [← List.countP_eq_length_filter, ← List.countP_eq_length_filter]
  exact hCount

end Entry

/-! ## Names in order -/

namespace Preview

section

variable {name x : String} {names : List String}

theorem mem_insertName : x ∈ insertName name names ↔ x = name ∨ x ∈ names := by
  induction names with
  | nil => simp [insertName]
  | cons n rest ih =>
    rw [insertName]
    split
    · exact List.mem_cons
    · split
      · rename_i hSame
        rw [hSame, List.mem_cons]
        exact or_self_left.symm
      · rw [List.mem_cons, List.mem_cons, ih]
        exact or_left_comm

theorem insertName_ascending (h : names.Pairwise (· < ·)) :
    (insertName name names).Pairwise (· < ·) := by
  induction names with
  | nil => exact List.pairwise_singleton _ _
  | cons n rest ih =>
    obtain ⟨hFirst, hRest⟩ := List.pairwise_cons.mp h
    rw [insertName]
    split
    · rename_i hBefore
      refine List.pairwise_cons.mpr ⟨fun x hx => ?_, h⟩
      rcases List.mem_cons.mp hx with rfl | hx
      · exact hBefore
      · exact lt_trans hBefore (hFirst x hx)
    · rename_i hBefore
      split
      · exact h
      · rename_i hNe
        refine List.pairwise_cons.mpr ⟨fun x hx => ?_, ih hRest⟩
        rcases mem_insertName.mp hx with rfl | hx
        · exact lt_of_le_of_ne (not_lt.mp hBefore) (Ne.symm hNe)
        · exact hFirst x hx

/-- Names in the order of their code points, each once. -/
def ordered (names : List String) : List String := names.foldr insertName []

theorem mem_ordered : x ∈ ordered names ↔ x ∈ names := by
  induction names with
  | nil => exact Iff.rfl
  | cons n rest ih =>
    rw [List.mem_cons, ← ih]
    exact mem_insertName

theorem ordered_ascending (names : List String) : (ordered names).Pairwise (· < ·) := by
  induction names with
  | nil => exact .nil
  | cons n rest ih => exact insertName_ascending ih

example : ordered ["zoe", "mario", "zoe"] = ["mario", "zoe"] := by decide +kernel

end

variable {entries : List (Entry Number)} {name : String}

/-- The characters of lines of dialogue that have one, in order. -/
def speakers (entries : List (Entry Number)) : List String :=
  ordered ((characterNames entries).filterMap id)

theorem mem_characterNames {character : Option String} :
    character ∈ characterNames entries ↔
      ∃ e ∈ entries, e.event.isText ∧
        e.event.fields.lookup "character" = some (.ofText? character) := by
  rw [characterNames, List.mem_eraseDups, List.mem_filterMap]
  refine exists_congr fun e => and_congr_right fun _ => ?_
  cases e.event with
  | text speaker state words =>
    have hField : (Event.text speaker state words).fields.lookup "character" =
      some (.ofText? speaker) := rfl
    rw [hField]
    cases speaker <;> cases character <;> simp [Event.isText, Value.ofText?, eq_comm]
  | _ => simp [Event.isText]

theorem mem_speakers :
    name ∈ speakers entries ↔
      ∃ e ∈ entries, e.event.isText ∧ e.event.fields.lookup "character" = some (.str name) := by
  rw [speakers, mem_ordered, List.mem_filterMap]
  simp only [id, exists_eq_right, mem_characterNames]
  rfl

theorem exists_character {e : Event} (h : e.WellFormed) (hText : e.isText = true) :
    ∃ name, e.fields.lookup "character" = some (.str name) := by
  cases h with
  | text => exact ⟨_, rfl⟩
  | location => cases hText
  | pause => cases hText
  | shot => cases hText

theorem characters_eq_ok (h : ∀ e ∈ entries, e.event.WellFormed) :
    characters entries = .ok ((speakers entries).map .str) := by
  have hNone : none ∉ characterNames entries := by
    intro hMem
    obtain ⟨e, he, hText, hNull⟩ := mem_characterNames.mp hMem
    obtain ⟨name, hName⟩ := exists_character (h e he) hText
    rw [hName] at hNull
    cases hNull
  unfold characters
  split
  · rename_i hAlone
    rw [hAlone] at hNone
    exact absurd List.mem_cons_self hNone
  · rw [if_neg (by simpa using hNone)]
    rfl

/-! ## Tallies -/

/-- What is told of an episode. -/
structure Tally where
  seed : Int
  events : ℕ
  lines : ℕ
  /-- The lines that no clip plays with. -/
  captions : ℕ
  names : List String

namespace Tally

/-- Is this what a timeline holds, as a value? The names ascend and are those of the characters of
its lines of dialogue. -/
structure IsOf (tally : Tally) (timeline : Value) : Prop where
  seed_eq : timeline.at? ["seed"] = some (.int tally.seed)
  items_eq : ∃ items, timeline.at? ["events"] = some (.arr items) ∧
    items.length = tally.events ∧
    (items.filter Value.isLine).length = tally.lines ∧
    ((items.filter Value.isLine).filter fun v => !v.isVoiced).length = tally.captions ∧
    (∀ v ∈ items, v.isLine → ∃ name ∈ tally.names, v.at? ["character"] = some (.str name)) ∧
    ∀ name ∈ tally.names, ∃ v ∈ items, v.isLine ∧ v.at? ["character"] = some (.str name)
  ascending : tally.names.Pairwise (· < ·)

/-- Is this what a report tells? -/
structure IsToldBy (tally : Tally) (report : Value) : Prop where
  seed_eq : report.at? ["seed"] = some (.int tally.seed)
  events_eq : report.at? ["stats", "events"] = some (.int tally.events)
  lines_eq : report.at? ["stats", "lines"] = some (.int tally.lines)
  captions_eq : report.at? ["stats", "captions_only"] = some (.int tally.captions)
  names_eq : report.at? ["characters"] = some (.arr (tally.names.map .str))

def ofTimeline (t : Timeline Number) : Tally where
  seed := t.seed
  events := t.entries.length
  lines := t.lines.length
  captions := t.captionCount
  names := speakers t.entries

variable {t : Timeline Number}

/-- How a tally is told, in two lines. -/
def summary (tally : Tally) (slug : String) : String :=
  ("Episode: " ++ slug ++ " (seed " ++ toString tally.seed ++ ")") ++ "\n" ++
    ("Events: " ++ toString tally.events ++ " (" ++ toString tally.lines ++ " lines, " ++
      toString tally.captions ++ " caption-only)") ++ "\n"

theorem ofTimeline_isOf (hWell : ∀ e ∈ t.entries, e.event.WellFormed) {value : Value}
    (h : t.toValue = .ok value) : (ofTimeline t).IsOf value := by
  obtain ⟨items, hItems, hValue⟩ := bind_eq_ok.mp h
  obtain rfl := Except.ok.inj hValue
  have hSpeakers : items.map (fun v => (v.isLine, v.at? ["character"])) =
      t.entries.map fun e => (e.event.isText, e.event.fields.lookup "character") :=
    Entry.map_of_valuesOf (fun e v hv =>
      Prod.ext (Entry.isLine_of_toValue hv) (Entry.character_of_toValue hv)) hItems
  refine ⟨rfl, ⟨items, rfl, ?_, ?_, ?_, fun v hv hLine => ?_, fun name hName => ?_⟩,
    ordered_ascending _⟩
  · have hLength := congrArg List.length hSpeakers
    rwa [List.length_map, List.length_map] at hLength
  · exact Entry.length_filter_of_valuesOf (fun e v hv => Entry.isLine_of_toValue hv) hItems
  · rw [ofTimeline, Timeline.captionCount, Timeline.lines, List.filter_filter, List.filter_filter]
    refine Entry.length_filter_of_valuesOf (fun e v hv => ?_) hItems
    rw [Entry.isLine_of_toValue hv, Entry.isVoiced_of_toValue hv, Option.not_isSome]
  · obtain ⟨e, he, hEq⟩ := List.mem_map.mp (hSpeakers ▸ List.mem_map_of_mem hv)
    obtain ⟨hText, hCharacter⟩ := Prod.mk.inj hEq
    rw [hLine] at hText
    obtain ⟨name, hName⟩ := exists_character (hWell e he) hText
    exact ⟨name, mem_speakers.mpr ⟨e, he, hText, hName⟩, hCharacter.symm.trans hName⟩
  · obtain ⟨e, he, hText, hCharacter⟩ := mem_speakers.mp hName
    obtain ⟨v, hv, hEq⟩ := List.mem_map.mp (hSpeakers.symm ▸ List.mem_map_of_mem he)
    obtain ⟨hLine, hSame⟩ := Prod.mk.inj hEq
    exact ⟨v, hv, hLine.trans hText, hSame.trans hCharacter⟩

theorem ofTimeline_isToldBy (hWell : ∀ e ∈ t.entries, e.event.WellFormed)
    {now slug source : String} {value : Value} (h : report t now slug source = .ok value) :
    (ofTimeline t).IsToldBy value := by
  rw [report, characters_eq_ok hWell, ok_bind] at h
  obtain ⟨seconds, -, hValue⟩ := bind_eq_ok.mp h
  obtain rfl := Except.ok.inj hValue
  exact ⟨rfl, rfl, rfl, rfl, rfl⟩

end Tally

end Preview

end Radioplay
