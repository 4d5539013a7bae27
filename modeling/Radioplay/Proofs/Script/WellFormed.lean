import Radioplay.Proofs.Script.Reading
import Radioplay.Proofs.Script.Shapes

/-! Everything that is read from a text is well formed: names, states, words and shots keep to the
rules for them, and the seed is no negative number. A state may come to an event from a line long
before it, so the table of states is kept to the rules as well. -/

namespace Radioplay

open Text

inductive Event.WellFormed : Event → Prop
  | location {name : String} (hName : Script.IsPlace name.toList) : WellFormed (.location name)
  | text {character state words : String} (hCharacter : Script.IsWord character.toList)
    (hState : Script.IsState state.toList) (hWords : Script.IsSpoken words.toList) :
    WellFormed (.text (some character) (some state) words)
  | pause {character state : String} (hCharacter : Script.IsWord character.toList)
    (hState : Script.IsState state.toList) : WellFormed (.pause (some character) (some state) none)
  | shot {name : String} (hName : Script.IsContent name.toList) : WellFormed (.shot name)

namespace Script

theorem isState_default : IsState defaultState.toList where
  ne_nil := by decide
  closed := by decide
  line := by decide
  ne_beat := by decide
  not_keyed := (keyed?_eq_none_iff (by decide)).mp rfl

/-! ### One line of dialogue -/

variable {character state : String}

theorem plainEvents_wellFormed (hCharacter : IsWord character.toList)
    (hState : IsState state.toList) {s : List Char} (hLine : '\n' ∉ s)
    (hPlain : ¬Segments.HasTag s) : ∀ e ∈ plainEvents character state s, e.WellFormed := by
  intro e he
  rw [plainEvents] at he
  split at he
  · cases he
  · rename_i hNe
    have hInfix : trim s <:+: s := stripEnds_isInfix isBlank s
    have hBare : Bare isBlank (trim s) := stripEnds_bare isBlank s
    have hTrim : trim s ≠ [] := by simpa using hNe
    obtain ⟨c, cs, hCons⟩ := List.exists_cons_of_ne_nil hTrim
    have hFirst : isBlank c = false := hBare.head c (by rw [hCons]; rfl)
    rw [List.mem_singleton.mp he]
    refine .text hCharacter hState ?_
    rw [String.toList_ofList]
    exact
      { ne_nil := hTrim
        bare := hBare
        line := fun hMem => hLine (hInfix.subset hMem)
        untagged := fun hTag => hPlain (hTag.of_isInfix hInfix)
        word := wordCount_pos (hCons ▸ List.mem_cons_self) hFirst }

theorem tagEvents_wellFormed (hCharacter : IsWord character.toList) (hState : IsState state.toList)
    {content : List Char} (hContent : IsContent content) :
    ∀ e ∈ (Tag.classify content).events character state, e.WellFormed := by
  intro e he
  cases hTag : Tag.classify content with
  | shot name =>
    rw [hTag, Tag.events, List.mem_singleton] at he
    rw [he]
    exact .shot (of_classify_shot hContent hTag)
  | pause =>
    rw [hTag, Tag.events, List.mem_singleton] at he
    rw [he]
    exact .pause hCharacter hState
  | _ =>
    rw [hTag] at he
    cases he

theorem stateAfter_isState (hState : IsState state.toList) {content : List Char}
    (hContent : IsContent content) :
    IsState ((Tag.classify content).stateAfter state).toList := by
  cases hTag : Tag.classify content with
  | state name => exact of_classify_state hContent hTag
  | _ => exact hState

/-- The running state of a line stays a state, and its events are well formed in it. -/
theorem tailEvents_wellFormed (hCharacter : IsWord character.toList)
    (hState : IsState state.toList) {tail : List (List Char × List Char)}
    (hTail : ∀ t p, (t, p) ∈ tail → IsContent t ∧ '\n' ∉ p ∧ ¬Segments.HasTag p) :
    (∀ e ∈ (tailEvents character state tail).1, e.WellFormed) ∧
      IsState (tailEvents character state tail).2.toList := by
  induction tail generalizing state with
  | nil => exact ⟨fun e he => absurd he List.not_mem_nil, hState⟩
  | cons segment rest ih =>
    obtain ⟨content, plain⟩ := segment
    obtain ⟨hContent, hLine, hPlain⟩ := hTail content plain List.mem_cons_self
    have hAfter := stateAfter_isState hState hContent
    obtain ⟨hRest, hLast⟩ := ih hAfter fun t p h => hTail t p (List.mem_cons_of_mem _ h)
    refine ⟨?_, hLast⟩
    intro e he
    simp only [tailEvents, List.mem_append] at he
    rcases he with he | he | he
    · exact tagEvents_wellFormed hCharacter hState hContent e he
    · exact plainEvents_wellFormed hCharacter hAfter hLine hPlain e he
    · exact hRest e he

theorem dialogue_wellFormed (hCharacter : IsWord character.toList) (hState : IsState state.toList)
    {text : List Char} (hLine : '\n' ∉ text) :
    (∀ e ∈ (dialogue character state text).1, e.WellFormed) ∧
      IsState (dialogue character state text).2.toList := by
  have hPart {s : List Char} (h : s <:+: text) : '\n' ∉ s := fun hMem => hLine (h.subset hMem)
  obtain ⟨hHead, hTail⟩ := Segments.plain_not_hasTag text
  have hSegments : ∀ t p, (t, p) ∈ (Segments.ofText text).tail →
      IsContent t ∧ '\n' ∉ p ∧ ¬Segments.HasTag p := by
    intro t p h
    obtain ⟨hNe, hClosed⟩ := Segments.tag_of_mem_tail h
    obtain ⟨hTag, hPlain⟩ := Segments.tail_isInfix h
    exact ⟨⟨hNe, hClosed, hPart hTag⟩, hPart hPlain, hTail t p h⟩
  obtain ⟨hEvents, hLast⟩ := tailEvents_wellFormed hCharacter hState hSegments
  refine ⟨?_, hLast⟩
  intro e he
  rcases List.mem_append.mp he with he | he
  · have hHeadLine := hPart (Segments.head_isInfix text)
    exact plainEvents_wellFormed hCharacter hState hHeadLine hHead e he
  · exact hEvents e he

/-! ### All lines -/

/-- What is carried from line to line keeps to the rules. -/
structure Reading.IsSound (r : Reading) : Prop where
  seed : ∀ n, r.seed = some n → 0 ≤ n
  state : ∀ c, IsState (r.state c).toList

theorem Reading.start_isSound : Reading.start.IsSound where
  seed _ h := by cases h
  state _ := isState_default

theorem readLine_wellFormed {r r' : Reading} {line : Line} {events : List Event} (hr : r.IsSound)
    (hLine : line.IsShaped) (h : readLine r line = .ok (events, r')) :
    (∀ e ∈ events, e.WellFormed) ∧ r'.IsSound := by
  cases line with
  | seed digits =>
    rw [readLine] at h
    split at h
    · rename_i n hSeed
      cases h
      refine ⟨fun e he => absurd he List.not_mem_nil, ?_, hr.state⟩
      intro m hm
      cases hm
      rw [seedValue] at hSeed
      split at hSeed
      · cases hSeed
      · cases hSeed
        exact Int.natCast_nonneg _
    · cases h
  | location name =>
    cases h
    refine ⟨?_, hr⟩
    intro e he
    rw [List.mem_singleton.mp he]
    exact .location (by rw [String.toList_ofList]; exact hLine)
  | dialogue character text =>
    obtain ⟨hWord, hText⟩ := hLine
    have hCharacter : IsWord (String.ofList character).toList := by
      rw [String.toList_ofList]
      exact hWord
    obtain ⟨hEvents, hLast⟩ :=
      dialogue_wellFormed hCharacter (hr.state (String.ofList character)) hText
    cases h
    refine ⟨hEvents, hr.seed, ?_⟩
    intro c
    rw [Reading.state, Table.get?_put]
    split
    · exact hLast
    · exact hr.state c
  | _ =>
    cases h
    exact ⟨fun e he => absurd he List.not_mem_nil, hr⟩

theorem readLines_wellFormed {r r' : Reading} {ls : List Line} {events : List Event}
    (hr : r.IsSound) (hLines : ∀ l ∈ ls, l.IsShaped) (h : readLines r ls = .ok (events, r')) :
    (∀ e ∈ events, e.WellFormed) ∧ r'.IsSound := by
  induction ls generalizing r events with
  | nil =>
    cases h
    exact ⟨fun e he => absurd he List.not_mem_nil, hr⟩
  | cons line rest ih =>
    obtain ⟨hLine, hRest⟩ := List.forall_mem_cons.mp hLines
    obtain ⟨first, r₁, more, hFirst, hMore, rfl⟩ := readLines_cons_eq_ok.mp h
    obtain ⟨hEvents, hr₁⟩ := readLine_wellFormed hr hLine hFirst
    obtain ⟨hMoreEvents, hr₂⟩ := ih hr₁ hRest hMore
    exact ⟨List.forall_mem_append.mpr ⟨hEvents, hMoreEvents⟩, hr₂⟩

/-- A script that has been read holds well-formed events only, and no negative seed. -/
theorem parse_wellFormed {text : List Char} {script : Script} (h : parse text = .ok script) :
    (∀ n, script.seed = some n → 0 ≤ n) ∧ ∀ e ∈ script.events, e.WellFormed := by
  unfold parse at h
  split at h
  · rename_i events r hRead
    have hShaped : ∀ l ∈ (lines text).map Line.ofRaw, l.IsShaped := by
      intro l hl
      obtain ⟨raw, hRaw, rfl⟩ := List.mem_map.mp hl
      exact Line.ofRaw_isShaped (newline_not_mem_of_mem_lines hRaw)
    obtain ⟨hEvents, hr⟩ := readLines_wellFormed Reading.start_isSound hShaped hRead
    cases h
    exact ⟨hr.seed, hEvents⟩
  · cases h

/-- Brackets that make no tag, and a state that is used again two lines later. -/
def aside : List Char := "seed: 7\nmario: [a[b] x] [ y\n@hall-2\nmario: [] [...]".toList

def asideScript : Script :=
  ⟨some 7,
    [.text (some "mario") (some "a[b") "x] [ y", .location "hall-2",
      .text (some "mario") (some "a[b") "[]", .pause (some "mario") (some "a[b") none]⟩

set_option maxRecDepth 20000 in
theorem aside_wellFormed :
    parse aside = .ok asideScript ∧ (∀ n, asideScript.seed = some n → 0 ≤ n) ∧
      ∀ e ∈ asideScript.events, e.WellFormed := by
  have hParse : parse aside = .ok asideScript := by with_unfolding_all rfl
  exact ⟨hParse, parse_wellFormed hParse⟩

end Script

end Radioplay
