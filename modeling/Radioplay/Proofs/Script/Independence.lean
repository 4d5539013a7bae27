import Radioplay.Proofs.Script.Reading
import Radioplay.Proofs.Script.Stream

/-! Characters do not interfere. A text is read with all its lines and without those of one
character, side by side: the two readings keep the same seed and the same states of all others, so
the places, and the lines and pauses of everybody else, come out the same. -/

namespace Radioplay.Script

open Text

/-- Is a line one of a character's dialogue? -/
def isSpokenBy (c : String) : Line → Bool
  | .dialogue character _ => String.ofList character == c
  | _ => false

/-- A text without the lines of a character's dialogue. -/
def without (c : String) (text : List Char) : List Char :=
  unlines ((lines text).filter fun row => !isSpokenBy c (Line.ofRaw row))

/-- Is an event a location, or a line or a pause that is not the character's? -/
def isApart (c : String) : Event → Bool
  | .location _ => true
  | .text character _ _ => character != some c
  | .pause character _ _ => character != some c
  | .shot _ => false

variable {c : String}

/-! ### The character's own lines -/

theorem plainEvents_not_apart (state : String) (s : List Char) :
    ∀ e ∈ plainEvents c state s, isApart c e = false := by
  intro e he
  rw [plainEvents] at he
  split at he
  · cases he
  · rw [List.mem_singleton.mp he]
    exact bne_self_eq_false (some c)

theorem tagEvents_not_apart (state : String) (tag : Tag) :
    ∀ e ∈ tag.events c state, isApart c e = false := by
  intro e he
  cases tag with
  | shot name =>
    rw [List.mem_singleton.mp he]
    rfl
  | pause =>
    rw [List.mem_singleton.mp he]
    exact bne_self_eq_false (some c)
  | _ => cases he

theorem tailEvents_not_apart (state : String) (tail : List (List Char × List Char)) :
    ∀ e ∈ (tailEvents c state tail).1, isApart c e = false := by
  induction tail generalizing state with
  | nil => exact fun e he => absurd he List.not_mem_nil
  | cons segment rest ih =>
    obtain ⟨content, plain⟩ := segment
    simp only [tailEvents, List.forall_mem_append]
    exact ⟨tagEvents_not_apart state _, plainEvents_not_apart _ plain, ih _⟩

theorem dialogue_not_apart (state : String) (text : List Char) :
    ∀ e ∈ (dialogue c state text).1, isApart c e = false :=
  List.forall_mem_append.mpr ⟨plainEvents_not_apart state _, tailEvents_not_apart state _⟩

/-! ### Two readings -/

/-- Two readings that only the state of one character can tell apart. -/
structure Reading.AlikeBut (c : String) (r r' : Reading) : Prop where
  seed_eq : r'.seed = r.seed
  state_eq : ∀ d, d ≠ c → r'.state d = r.state d

theorem Reading.AlikeBut.refl (r : Reading) : r.AlikeBut c r := ⟨rfl, fun _ _ => rfl⟩

variable {r r₁ r' : Reading} {line : Line} {events : List Event}

/-- A line of the character moves one reading only, and nothing in it is of others. -/
theorem Reading.AlikeBut.own (hr : r.AlikeBut c r') (hLine : isSpokenBy c line = true)
    (h : readLine r line = .ok (events, r₁)) :
    events.filter (isApart c) = [] ∧ r₁.AlikeBut c r' := by
  cases line with
  | dialogue character text =>
    obtain rfl := beq_iff_eq.mp hLine
    cases h
    refine ⟨?_, hr.seed_eq, ?_⟩
    · rw [List.filter_eq_nil_iff]
      intro e he
      rw [dialogue_not_apart _ text e he]
      exact Bool.false_ne_true
    · intro d hd
      rw [Reading.state_put, if_neg hd]
      exact hr.state_eq d hd
  | _ => cases hLine

/-- Any other line is read alike by both. -/
theorem Reading.AlikeBut.other (hr : r.AlikeBut c r') (hLine : isSpokenBy c line = false)
    (h : readLine r line = .ok (events, r₁)) :
    ∃ r₁', readLine r' line = .ok (events, r₁') ∧ r₁.AlikeBut c r₁' := by
  cases line with
  | seed digits =>
    simp only [readLine] at h ⊢
    split at h
    · cases h
      exact ⟨_, rfl, rfl, hr.state_eq⟩
    · cases h
  | dialogue character text =>
    have hOther : String.ofList character ≠ c := beq_eq_false_iff_ne.mp hLine
    cases h
    rw [readLine, hr.state_eq _ hOther]
    refine ⟨_, rfl, hr.seed_eq, ?_⟩
    intro d hd
    rw [Reading.state_put, Reading.state_put]
    split
    · rfl
    · exact hr.state_eq d hd
  | _ =>
    cases h
    exact ⟨r', rfl, hr⟩

/-- The induction over the lines, of which one reading passes over the character's. -/
theorem readLines_without {ls : List Line} (hr : r.AlikeBut c r')
    (h : readLines r ls = .ok (events, r₁)) :
    ∃ kept r₁', readLines r' (ls.filter fun line => !isSpokenBy c line) = .ok (kept, r₁') ∧
      kept.filter (isApart c) = events.filter (isApart c) ∧ r₁.AlikeBut c r₁' := by
  induction ls generalizing r r' events with
  | nil =>
    cases h
    exact ⟨[], r', rfl, rfl, hr⟩
  | cons line rest ih =>
    obtain ⟨first, r₂, more, hLine, hRest, rfl⟩ := readLines_cons_eq_ok.mp h
    cases hOwn : isSpokenBy c line with
    | true =>
      obtain ⟨hNone, hr₂⟩ := hr.own hOwn hLine
      rw [List.filter_cons_of_neg (by rw [hOwn]; exact Bool.false_ne_true), List.filter_append,
        hNone, List.nil_append]
      exact ih hr₂ hRest
    | false =>
      obtain ⟨r₂', hLine', hr₂⟩ := hr.other hOwn hLine
      obtain ⟨kept, r₁', hRest', hSame, hr₁⟩ := ih hr₂ hRest
      rw [List.filter_cons_of_pos (by rw [hOwn]; rfl)]
      refine ⟨first ++ kept, r₁', ?_, ?_, hr₁⟩
      · exact readLines_cons_eq_ok.mpr ⟨first, r₂', kept, hLine', hRest', rfl⟩
      · rw [List.filter_append, List.filter_append, hSame]

/-- Without the lines of one character a text is read to the same seed, the same locations, and the
same lines and pauses of all others, in the same states. -/
theorem parse_without {text : List Char} {script : Script} (h : parse text = .ok script)
    (c : String) :
    ∃ reduced, parse (without c text) = .ok reduced ∧ reduced.seed = script.seed ∧
      reduced.events.filter (isApart c) = script.events.filter (isApart c) := by
  obtain ⟨r, hRead, hSeed⟩ := parse_eq_ok.mp h
  obtain ⟨kept, r', hKept, hSame, hr⟩ := readLines_without (c := c) (.refl .start) hRead
  have hRows : ∀ row ∈ (lines text).filter fun row => !isSpokenBy c (Line.ofRaw row),
      '\n' ∉ row := by
    intro row hRow
    exact newline_not_mem_of_mem_lines (List.mem_filter.mp hRow).1
  refine ⟨⟨r'.seed, kept⟩, ?_, ?_, hSame⟩
  · refine parse_eq_ok.mpr ⟨r', ?_, rfl⟩
    rw [without, readLines_lines_unlines hRows, ← hKept, List.filter_map]
    rfl
  · rw [hSeed]
    exact hr.seed_eq

set_option maxRecDepth 20000 in
theorem talk_without :
    parse talk = .ok talkScript ∧
      ∃ reduced, parse (without "mario" talk) = .ok reduced ∧ reduced.seed = some 9 ∧
        reduced.events.filter (isApart "mario") =
          [.text (some "luigi") (some "neutral") "Yo",
            .pause (some "luigi") (some "neutral") none, .location "park",
            .text (some "luigi") (some "sad") "Bye"] := by
  have hParse : parse talk = .ok talkScript := by with_unfolding_all rfl
  obtain ⟨reduced, hReduced, hSeed, hSame⟩ := parse_without hParse "mario"
  exact ⟨hParse, reduced, hReduced, hSeed, hSame⟩

end Radioplay.Script
