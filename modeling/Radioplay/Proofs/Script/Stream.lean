import Radioplay.Proofs.Script.Reading

/-! A script as one stream of items: its locations, and the plain text and the tags of each
character's lines. The events are the images of the items in order, and the state that an event
shows is the last one that its character was given earlier in the stream, on whatever line. -/

namespace Radioplay.Script

open Text

inductive Item where
  | location (name : List Char)
  | plain (character : String) (text : List Char)
  | tag (character : String) (content : List Char)
  deriving DecidableEq, Repr

/-- The tags of a line with the plain text after each, labelled with the character. -/
def tailItems (character : String) (tail : List (List Char × List Char)) : List Item :=
  tail.flatMap fun (content, plain) => [.tag character content, .plain character plain]

def dialogueItems (character : String) (text : List Char) : List Item :=
  let segments := Segments.ofText text
  .plain character segments.head :: tailItems character segments.tail

def itemsOf : Line → List Item
  | .location name => [.location name]
  | .dialogue character text => dialogueItems (String.ofList character) text
  | _ => []

def stream (text : List Char) : List Item := ((lines text).map Line.ofRaw).flatMap itemsOf

/-- The state that an item gives to a character. -/
def Item.stateFor? (character : String) : Item → Option String
  | .tag c content =>
    match Tag.classify content with
    | .state _ => if c = character then some (String.ofList content) else none
    | _ => none
  | _ => none

/-- The state of a character after items: that of the last tag that gives it one. -/
def stateAfter (items : List Item) (character : String) : String :=
  (items.filterMap (Item.stateFor? character)).getLast?.getD defaultState

/-- The event that an item stands for, by the states of the characters when it is met. -/
def Item.event? (state : String → String) : Item → Option Event
  | .location name => some (.location (String.ofList name))
  | .plain c text =>
    if (trim text).isEmpty then none
    else some (.text (some c) (some (state c)) (String.ofList (trim text)))
  | .tag c content =>
    match Tag.classify content with
    | .shot name => some (.shot name)
    | .pause => some (.pause (some c) (some (state c)) none)
    | _ => none

theorem stateAfter_append_singleton (items : List Item) (item : Item) (c : String) :
    stateAfter (items ++ [item]) c = (item.stateFor? c).getD (stateAfter items c) := by
  rw [stateAfter, List.filterMap_append]
  cases hState : item.stateFor? c <;> simp [hState, stateAfter]

theorem eq_of_classify_state {content : List Char} {name : String}
    (h : Tag.classify content = .state name) : name = String.ofList content := by
  unfold Tag.classify at h
  split at h
  · cases h
  · split at h
    · split at h <;> cases h
    · exact (Tag.state.inj h).symm

def eventsAfter (before : List Item) : List Item → List Event
  | [] => []
  | item :: rest =>
    (item.event? (stateAfter before)).toList ++ eventsAfter (before ++ [item]) rest

theorem eventsAfter_append (before xs ys : List Item) :
    eventsAfter before (xs ++ ys) = eventsAfter before xs ++ eventsAfter (before ++ xs) ys := by
  induction xs generalizing before with
  | nil => simp [eventsAfter]
  | cons item xs ih => simp [eventsAfter, ih]

theorem eventsAfter_eq_filterMap (before items : List Item) :
    eventsAfter before items =
      (items.zipIdx before.length).filterMap fun (item, i) =>
        item.event? (stateAfter ((before ++ items).take i)) := by
  induction items generalizing before with
  | nil => rfl
  | cons item rest ih =>
    rw [eventsAfter, ih, List.zipIdx_cons, List.filterMap_cons]
    cases hEvent : item.event? (stateAfter before) <;> simp [hEvent]

/-! ### One line -/

theorem plainEvents_eq (before : List Item) (c : String) (text : List Char) :
    plainEvents c (stateAfter before c) text =
      ((Item.plain c text).event? (stateAfter before)).toList := by
  simp only [plainEvents, Item.event?]
  split <;> rfl

theorem tagEvents_eq (before : List Item) (c : String) (content : List Char) :
    (Tag.classify content).events c (stateAfter before c) =
      ((Item.tag c content).event? (stateAfter before)).toList := by
  simp only [Item.event?]
  cases Tag.classify content <;> rfl

theorem stateAfter_tag (before : List Item) (c : String) (content : List Char) :
    (Tag.classify content).stateAfter (stateAfter before c) =
      stateAfter (before ++ [.tag c content]) c := by
  rw [stateAfter_append_singleton, Item.stateFor?]
  cases hTag : Tag.classify content with
  | state name => simp [Tag.stateAfter, eq_of_classify_state hTag]
  | _ => rfl

theorem stateAfter_plain (before : List Item) (c c' : String) (text : List Char) :
    stateAfter (before ++ [.plain c text]) c' = stateAfter before c' := by
  rw [stateAfter_append_singleton]
  rfl

/-- The running state of a line is that of the stream. -/
theorem tailEvents_eq (before : List Item) (c : String) (tail : List (List Char × List Char)) :
    tailEvents c (stateAfter before c) tail =
      (eventsAfter before (tailItems c tail), stateAfter (before ++ tailItems c tail) c) := by
  induction tail generalizing before with
  | nil => simp [tailEvents, tailItems, eventsAfter]
  | cons segment rest ih =>
    obtain ⟨content, plain⟩ := segment
    have hItems : tailItems c ((content, plain) :: rest) =
        .tag c content :: .plain c plain :: tailItems c rest := rfl
    have hState : (Tag.classify content).stateAfter (stateAfter before c) =
        stateAfter (before ++ [.tag c content] ++ [.plain c plain]) c := by
      rw [stateAfter_plain, stateAfter_tag]
    simp only [tailEvents, hItems, eventsAfter]
    rw [hState, ih, tagEvents_eq, stateAfter_plain, plainEvents_eq]
    simp

theorem dialogue_eq (before : List Item) (c : String) (text : List Char) :
    dialogue c (stateAfter before c) text =
      (eventsAfter before (dialogueItems c text),
        stateAfter (before ++ dialogueItems c text) c) := by
  have hState := stateAfter_plain before c c (Segments.ofText text).head
  simp only [dialogue, dialogueItems, eventsAfter]
  rw [plainEvents_eq, ← hState, tailEvents_eq]
  simp

/-- A line of one character leaves the states of all others alone. -/
theorem stateAfter_dialogueItems {c c' : String} (hne : c ≠ c') (before : List Item)
    (text : List Char) :
    stateAfter (before ++ dialogueItems c text) c' = stateAfter before c' := by
  have hNone : (dialogueItems c text).filterMap (Item.stateFor? c') = [] := by
    apply List.filterMap_eq_nil_iff.mpr
    intro item hItem
    have hLabel : ∃ s, item = .plain c s ∨ item = .tag c s := by
      simp only [dialogueItems, tailItems, List.mem_cons, List.mem_flatMap] at hItem
      rcases hItem with rfl | ⟨segment, -, hItem⟩
      · exact ⟨_, .inl rfl⟩
      · simp only [List.not_mem_nil, or_false] at hItem
        rcases hItem with rfl | rfl
        · exact ⟨_, .inr rfl⟩
        · exact ⟨_, .inl rfl⟩
    obtain ⟨s, rfl | rfl⟩ := hLabel
    · rfl
    · simp only [Item.stateFor?, hne, if_false]
      split <;> rfl
  rw [stateAfter, List.filterMap_append, hNone, List.append_nil, stateAfter]

/-! ### All lines -/

/-- The table of states holds what the stream so far gives each character. -/
def Reading.Agrees (r : Reading) (before : List Item) : Prop :=
  ∀ c, r.state c = stateAfter before c

theorem Reading.start_agrees : Reading.start.Agrees [] := fun _ => rfl

theorem Reading.state_put (r : Reading) (c last c' : String) :
    ({ r with states := r.states.put c last } : Reading).state c' =
      if c' = c then last else r.state c' := by
  rw [state, Table.get?_put]
  split <;> rfl

theorem readLine_agrees {r r' : Reading} {before : List Item} {line : Line}
    {events : List Event} (hr : r.Agrees before) (h : readLine r line = .ok (events, r')) :
    events = eventsAfter before (itemsOf line) ∧ r'.Agrees (before ++ itemsOf line) := by
  cases line with
  | seed digits =>
    simp only [readLine] at h
    split at h <;> cases h
    have hNone : itemsOf (.seed digits) = [] := rfl
    rw [hNone, List.append_nil]
    exact ⟨rfl, hr⟩
  | location name =>
    cases h
    refine ⟨rfl, ?_⟩
    intro c
    rw [itemsOf, stateAfter_append_singleton]
    exact hr c
  | dialogue character text =>
    simp only [readLine, hr (String.ofList character), dialogue_eq] at h
    cases h
    refine ⟨rfl, ?_⟩
    intro c
    rw [Reading.state_put, itemsOf]
    split
    · rename_i hc
      rw [hc]
    · rename_i hc
      rw [stateAfter_dialogueItems (Ne.symm hc)]
      exact hr c
  | _ =>
    cases h
    exact ⟨rfl, by simpa [itemsOf] using hr⟩

/-- The induction over the lines of a script. -/
theorem readLines_agrees {r r' : Reading} {before : List Item} {ls : List Line}
    {events : List Event} (hr : r.Agrees before) (h : readLines r ls = .ok (events, r')) :
    events = eventsAfter before (ls.flatMap itemsOf) ∧
      r'.Agrees (before ++ ls.flatMap itemsOf) := by
  induction ls generalizing r before events with
  | nil =>
    cases h
    exact ⟨rfl, by simpa using hr⟩
  | cons line rest ih =>
    obtain ⟨first, r₁, more, hLine, hRest, rfl⟩ := readLines_cons_eq_ok.mp h
    obtain ⟨hFirst, hr₁⟩ := readLine_agrees hr hLine
    obtain ⟨hMore, hr₂⟩ := ih hr₁ hRest
    rw [List.flatMap_cons, eventsAfter_append, ← hFirst, ← hMore, ← List.append_assoc]
    exact ⟨rfl, hr₂⟩

/-- The events of a script are the images of its stream, each by the states that the stream before
it gives. -/
theorem parse_events {text : List Char} {script : Script} (h : parse text = .ok script) :
    script.events = (stream text).zipIdx.filterMap fun (item, i) =>
      item.event? (stateAfter ((stream text).take i)) := by
  unfold parse at h
  split at h
  · rename_i events r hRead
    cases h
    obtain ⟨hEvents, -⟩ := readLines_agrees Reading.start_agrees hRead
    rw [hEvents, eventsAfter_eq_filterMap]
    rfl
  · cases h

def talk : List Char :=
  "mario: [happy] Hi [shot: wide] there\nluigi: [k: v] Yo [...] [sad]\n".toList ++
    "seed: 9\n@park\nmario: [...]\nluigi: Bye".toList

def talkScript : Script :=
  ⟨some 9,
    [.text (some "mario") (some "happy") "Hi", .shot "wide",
      .text (some "mario") (some "happy") "there", .text (some "luigi") (some "neutral") "Yo",
      .pause (some "luigi") (some "neutral") none, .location "park",
      .pause (some "mario") (some "happy") none, .text (some "luigi") (some "sad") "Bye"]⟩

set_option maxRecDepth 20000 in
theorem talk_events :
    parse talk = .ok talkScript ∧
      talkScript.events = (stream talk).zipIdx.filterMap fun (item, i) =>
        item.event? (stateAfter ((stream talk).take i)) := by
  have hParse : parse talk = .ok talkScript := by with_unfolding_all rfl
  exact ⟨hParse, parse_events hParse⟩

end Radioplay.Script
