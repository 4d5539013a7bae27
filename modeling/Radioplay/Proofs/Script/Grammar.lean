import Radioplay.Proofs.Script.Shapes

/-! The grammar of scripts: a line that each event can be written on, whole in itself, so that the
lines can stand in any order. Reading such lines gives back the events that were written, whatever
states their characters were in before. -/

namespace Radioplay

open Text

namespace Script

/-- Words that stand in a line as they are. -/
structure IsUtterance (s : List Char) : Prop where
  ne_nil : s ≠ []
  bare : Bare isBlank s
  line : '\n' ∉ s
  unopened : '[' ∉ s
  unmarked : ∀ c ∈ s.getLast?, c ≠ byteOrderMark

end Script

open Script

/-- A line that an event is written on; that of a shot may be any character's. -/
inductive Event.WrittenAs : Event → List Char → Prop
  | location {name : List Char} (hName : IsPlace name) :
    WrittenAs (.location (String.ofList name)) ("@".toList ++ name)
  | text {character state words : List Char} (hCharacter : IsWord character)
    (hState : IsState state) (hWords : IsUtterance words) :
    WrittenAs
      (.text (some (String.ofList character)) (some (String.ofList state)) (String.ofList words))
      (character ++ (": [".toList ++ state ++ "] ".toList ++ words))
  | pause {character state : List Char} (hCharacter : IsWord character) (hState : IsState state) :
    WrittenAs (.pause (some (String.ofList character)) (some (String.ofList state)) none)
      (character ++ (": [".toList ++ state ++ "] [...]".toList))
  | shot {character name : List Char} (hCharacter : IsWord character) (hName : IsContent name)
    (hHead : ∀ c ∈ name.head?, isSpace c = false) :
    WrittenAs (.shot (String.ofList name))
      (character ++ (": [shot: ".toList ++ name ++ "]".toList))

namespace Script

/-! ### Characters of a written line -/

theorem isEdge_of_isWordChar {c : Char} (h : isWordChar c = true) : isEdge c = false := by
  obtain ⟨hLow, hHigh, -⟩ := toNat_of_isWordChar h
  exact isEdge_of_visible (by omega) (by omega)

theorem isEdge_of_isLocationChar {c : Char} (h : Line.isLocationChar c = true) :
    isEdge c = false := by
  rcases Bool.or_eq_true_iff.mp h with h | h
  · exact isEdge_of_isWordChar h
  · rw [beq_iff_eq.mp h]
    decide

theorem IsWord.line {s : List Char} (h : IsWord s) : '\n' ∉ s := by
  intro hMem
  exact absurd (h.2 _ hMem) (by decide)

theorem IsWord.head {s : List Char} (h : IsWord s) : ∀ c ∈ s.head?, isEdge c = false := by
  intro c hc
  exact isEdge_of_isWordChar (h.2 c (List.mem_of_mem_head? hc))

theorem IsUtterance.last {s : List Char} (h : IsUtterance s) :
    ∀ c ∈ s.getLast?, isEdge c = false := by
  intro c hc
  rw [isEdge, h.bare.last c hc, Bool.false_or]
  exact beq_eq_false_iff_ne.mpr (h.unmarked c hc)

theorem ofRaw_location {name : List Char} (h : IsPlace name) :
    Line.ofRaw ("@".toList ++ name) = .location name := by
  have hLast : ∀ c ∈ name.getLast?, isEdge c = false := by
    intro c hc
    exact isEdge_of_isLocationChar (h.2 c (List.mem_of_mem_getLast? hc))
  have hBare : Bare isEdge ("@".toList ++ name) :=
    Bare.append (by decide) h.1 (by rintro c ⟨⟩; decide) hLast []
  rw [Line.ofRaw, cleaned_eq_self hBare]
  exact classify_location h

/-! ### One event -/

theorem plainEvents_nil (c state : String) : plainEvents c state [] = [] := rfl

theorem dialogue_text {state words : List Char} (c before : String) (hState : IsState state)
    (hWords : IsUtterance words) :
    dialogue c before ('[' :: (state ++ ']' :: ' ' :: words)) =
      ([.text (some c) (some (String.ofList state)) (String.ofList words)],
        String.ofList state) := by
  have hOpen : '[' ∉ ' ' :: words := by
    rw [List.mem_cons, not_or]
    exact ⟨by decide, hWords.unopened⟩
  have hSplit : Segments.ofText ('[' :: (state ++ ']' :: ' ' :: words)) =
      ⟨[], [(state, ' ' :: words)]⟩ := by
    have hTag :=
      Segments.ofText_tag (p := []) (by decide) hState.ne_nil hState.closed (' ' :: words)
    rw [Segments.ofText_of_not_mem hOpen] at hTag
    exact hTag
  have hTrim : trim (' ' :: words) = words := by
    rw [trim_cons_of_blank (by decide), trim, stripEnds_eq_self hWords.bare]
  have hPlain : plainEvents c (String.ofList state) (' ' :: words) =
      [.text (some c) (some (String.ofList state)) (String.ofList words)] := by
    rw [plainEvents, hTrim, if_neg (by simpa using hWords.ne_nil)]
  simp only [dialogue, hSplit, tailEvents, classify_state hState, Tag.stateAfter, Tag.events,
    hPlain, plainEvents_nil, List.nil_append, List.append_nil]

theorem dialogue_pause {state : List Char} (c before : String) (hState : IsState state) :
    dialogue c before ('[' :: (state ++ ']' :: " [...]".toList)) =
      ([.pause (some c) (some (String.ofList state)) none], String.ofList state) := by
  have hSplit : Segments.ofText ('[' :: (state ++ ']' :: " [...]".toList)) =
      ⟨[], [(state, [' ']), (['.', '.', '.'], [])]⟩ := by
    have hBeat := Segments.ofText_tag (p := [' ']) (t := ['.', '.', '.']) (by decide) (by decide)
      (by decide) []
    have hTag := Segments.ofText_tag (p := []) (by decide) hState.ne_nil hState.closed
      " [...]".toList
    rw [Segments.ofText_of_not_mem (s := []) (by decide)] at hBeat
    rw [show " [...]".toList = [' '] ++ '[' :: (['.', '.', '.'] ++ [']']) from rfl, hBeat] at hTag
    exact hTag
  have hBlank : plainEvents c (String.ofList state) [' '] = [] := rfl
  have hBeat : Tag.classify ['.', '.', '.'] = .pause := rfl
  simp only [dialogue, hSplit, tailEvents, classify_state hState, hBeat, Tag.stateAfter, Tag.events,
    hBlank, plainEvents_nil, List.nil_append, List.append_nil]

theorem dialogue_shot {name : List Char} (c before : String) (hName : IsContent name)
    (hHead : ∀ c ∈ name.head?, isSpace c = false) :
    dialogue c before ('[' :: (("shot: ".toList ++ name) ++ ']' :: [])) =
      ([.shot (String.ofList name)], before) := by
  have hSplit : Segments.ofText ('[' :: (("shot: ".toList ++ name) ++ ']' :: [])) =
      ⟨[], [("shot: ".toList ++ name, [])]⟩ := by
    have hClosed : ']' ∉ "shot: ".toList ++ name := by
      rw [List.mem_append, not_or]
      exact ⟨by decide, hName.closed⟩
    have hTag := Segments.ofText_tag (p := []) (by decide) (by simp) hClosed []
    rw [Segments.ofText_of_not_mem (s := []) (by decide)] at hTag
    exact hTag
  have hShot : Tag.classify ("shot: ".toList ++ name) = .shot (String.ofList name) :=
    classify_shot hName.ne_nil hName.line hHead
  simp only [dialogue, hSplit, tailEvents, hShot, Tag.stateAfter, Tag.events, plainEvents_nil,
    List.nil_append, List.append_nil]

/-- A line of dialogue that begins with a bracket is no seed line, not even that of a character of
that name. -/
theorem readLine_dialogue {character inner : List Char} {event : Event}
    (hCharacter : IsWord character)
    (hBare : Bare isEdge (character ++ ':' :: ' ' :: '[' :: inner))
    (hEvent : ∀ before, (dialogue (String.ofList character) before ('[' :: inner)).1 = [event])
    (r : Reading) :
    ∃ r', readLine r (Line.ofRaw (character ++ ':' :: ' ' :: '[' :: inner)) = .ok ([event], r') ∧
      r'.seed = r.seed := by
  have hMem : '[' ∈ character ++ ':' :: ' ' :: '[' :: inner := by simp
  have hSeed : Line.seed? (character ++ ':' :: ' ' :: '[' :: inner) = none :=
    seed?_eq_none hMem (by decide) (by decide) (by decide)
  have hLine : Line.ofRaw (character ++ ':' :: ' ' :: '[' :: inner) =
      .dialogue character ('[' :: inner) := by
    rw [Line.ofRaw, cleaned_eq_self hBare, classify_dialogue hCharacter _ hSeed]
    rfl
  rw [hLine, readLine]
  simp only [hEvent]
  exact ⟨_, rfl, rfl⟩

theorem readLine_text {character state words : List Char} (hCharacter : IsWord character)
    (hState : IsState state) (hWords : IsUtterance words) (r : Reading) :
    ∃ r', readLine r (Line.ofRaw (character ++ (": [".toList ++ state ++ "] ".toList ++ words))) =
        .ok ([.text (some (String.ofList character)) (some (String.ofList state))
          (String.ofList words)], r') ∧ r'.seed = r.seed := by
  have hBare := Bare.append hCharacter.1 hWords.ne_nil hCharacter.head hWords.last
    (": [".toList ++ state ++ "] ".toList)
  have hRow : character ++ (": [".toList ++ state ++ "] ".toList ++ words) =
      character ++ ':' :: ' ' :: '[' :: (state ++ ']' :: ' ' :: words) := by simp
  rw [hRow] at hBare ⊢
  refine readLine_dialogue hCharacter hBare (fun before => ?_) r
  rw [dialogue_text _ before hState hWords]

theorem readLine_pause {character state : List Char} (hCharacter : IsWord character)
    (hState : IsState state) (r : Reading) :
    ∃ r', readLine r (Line.ofRaw (character ++ (": [".toList ++ state ++ "] [...]".toList))) =
        .ok ([.pause (some (String.ofList character)) (some (String.ofList state)) none], r') ∧
      r'.seed = r.seed := by
  have hBare := Bare.append (v := "] [...]".toList) hCharacter.1 (by decide) hCharacter.head
    (by rintro c ⟨⟩; decide) (": [".toList ++ state)
  have hRow : character ++ (": [".toList ++ state ++ "] [...]".toList) =
      character ++ ':' :: ' ' :: '[' :: (state ++ ']' :: " [...]".toList) := by simp
  rw [hRow] at hBare ⊢
  refine readLine_dialogue hCharacter hBare (fun before => ?_) r
  rw [dialogue_pause _ before hState]

theorem readLine_shot {character name : List Char} (hCharacter : IsWord character)
    (hName : IsContent name) (hHead : ∀ c ∈ name.head?, isSpace c = false) (r : Reading) :
    ∃ r', readLine r (Line.ofRaw (character ++ (": [shot: ".toList ++ name ++ "]".toList))) =
        .ok ([.shot (String.ofList name)], r') ∧ r'.seed = r.seed := by
  have hBare := Bare.append (v := "]".toList) hCharacter.1 (by decide) hCharacter.head
    (by rintro c ⟨⟩; decide)
    (": [shot: ".toList ++ name)
  have hRow : character ++ (": [shot: ".toList ++ name ++ "]".toList) =
      character ++ ':' :: ' ' :: '[' :: (("shot: ".toList ++ name) ++ ']' :: []) := by simp
  rw [hRow] at hBare ⊢
  refine readLine_dialogue hCharacter hBare (fun before => ?_) r
  rw [dialogue_shot _ before hName hHead]

/-- A written line holds its event and nothing else, in whatever states it is read. -/
theorem readLine_written {event : Event} {row : List Char} (h : event.WrittenAs row) (r : Reading) :
    ∃ r', readLine r (Line.ofRaw row) = .ok ([event], r') ∧ r'.seed = r.seed := by
  cases h with
  | location hName =>
    rw [ofRaw_location hName]
    exact ⟨r, rfl, rfl⟩
  | text hCharacter hState hWords => exact readLine_text hCharacter hState hWords r
  | pause hCharacter hState => exact readLine_pause hCharacter hState r
  | shot hCharacter hName hHead => exact readLine_shot hCharacter hName hHead r

theorem newline_not_mem_of_written {event : Event} {row : List Char} (h : event.WrittenAs row) :
    '\n' ∉ row := by
  cases h with
  | location hName =>
    intro hMem
    rcases List.mem_append.mp hMem with hMem | hMem
    · exact absurd hMem (by decide)
    · exact absurd (hName.2 _ hMem) (by decide)
  | text hCharacter hState hWords => simp [hCharacter.line, hState.line, hWords.line]
  | pause hCharacter hState => simp [hCharacter.line, hState.line]
  | shot hCharacter hName _ => simp [hCharacter.line, hName.line]

/-! ### All lines -/

theorem readLines_written {events : List Event} {rows : List (List Char)}
    (h : List.Forall₂ Event.WrittenAs events rows) (r : Reading) :
    ∃ r', readLines r (rows.map Line.ofRaw) = .ok (events, r') ∧ r'.seed = r.seed := by
  induction h generalizing r with
  | nil => exact ⟨r, rfl, rfl⟩
  | cons hRow _ ih =>
    obtain ⟨r₁, hLine, hSeed₁⟩ := readLine_written hRow r
    obtain ⟨r₂, hRest, hSeed₂⟩ := ih r₁
    refine ⟨r₂, ?_, hSeed₂.trans hSeed₁⟩
    rw [List.map_cons, readLines, hLine]
    simp only [hRest]
    rfl

def seedRow (n : ℕ) : List Char := "seed: ".toList ++ Nat.toDigits 10 n

theorem digitsValue_toDigits (n : ℕ) : digitsValue (Nat.toDigits 10 n) = n :=
  foldl_toDigits n

theorem ofRaw_seed {digits : List Char} (hNe : digits ≠ [])
    (hDigits : ∀ c ∈ digits, c.isDigit = true) :
    Line.ofRaw ("seed: ".toList ++ digits) = .seed digits := by
  have hBare : Bare isEdge ("seed: ".toList ++ digits) := by
    refine Bare.append (by decide) hNe (by rintro c ⟨⟩; decide) ?_ []
    intro c hc
    exact isEdge_of_isWordChar (isWordChar_of_isDigit (hDigits c (List.mem_of_mem_getLast? hc)))
  rw [Line.ofRaw, cleaned_eq_self hBare]
  exact classify_seed (List.all_eq_true.mp (show [' '].all isSpace by decide)) hNe hDigits

theorem readLine_seedRow {n : ℕ} (h : (Nat.toDigits 10 n).length ≤ digitLimit) (r : Reading) :
    readLine r (Line.ofRaw (seedRow n)) = .ok ([], { r with seed := some (n : ℤ) }) := by
  have hDigit : ∀ c ∈ Nat.toDigits 10 n, c.isDigit = true :=
    fun c hc => Nat.isDigit_of_mem_toDigits (by decide) (by decide) hc
  have hLine : Line.ofRaw (seedRow n) = .seed (Nat.toDigits 10 n) :=
    ofRaw_seed Nat.toDigits_ne_nil hDigit
  rw [hLine, readLine, seedValue, if_neg (by omega), digitsValue_toDigits]

/-- The lines of a script: one for its seed, if it has one, and one for each event. -/
def scriptRows (seed : Option ℕ) (rows : List (List Char)) : List (List Char) :=
  (seed.map seedRow).toList ++ rows

theorem readLines_scriptRows {seed : Option ℕ}
    (hSeed : ∀ n, seed = some n → (Nat.toDigits 10 n).length ≤ digitLimit) {events : List Event}
    {rows : List (List Char)} (h : List.Forall₂ Event.WrittenAs events rows) :
    ∃ r, readLines .start ((scriptRows seed rows).map Line.ofRaw) = .ok (events, r) ∧
      r.seed = seed.map fun n => (n : ℤ) := by
  cases seed with
  | none => exact readLines_written h .start
  | some n =>
    obtain ⟨r, hRead, hKept⟩ := readLines_written h { Reading.start with seed := some (n : ℤ) }
    refine ⟨r, ?_, hKept⟩
    show readLines .start (Line.ofRaw (seedRow n) :: rows.map Line.ofRaw) = _
    rw [readLines, readLine_seedRow (hSeed n rfl)]
    simp only [hRead]
    rfl

theorem newline_not_mem_of_mem_scriptRows {seed : Option ℕ} {events : List Event}
    {rows : List (List Char)} (h : List.Forall₂ Event.WrittenAs events rows) :
    ∀ row ∈ scriptRows seed rows, '\n' ∉ row := by
  have hRows : ∀ row ∈ rows, '\n' ∉ row := by
    induction h with
    | nil => exact fun row hRow => absurd hRow List.not_mem_nil
    | cons hRow _ ih => exact List.forall_mem_cons.mpr ⟨newline_not_mem_of_written hRow, ih⟩
  intro row hRow
  rcases List.mem_append.mp hRow with hRow | hRow
  · obtain ⟨n, -, rfl⟩ := Option.map_eq_some_iff.mp (Option.mem_toList.mp hRow)
    intro hMem
    rcases List.mem_append.mp hMem with hMem | hMem
    · exact absurd hMem (by decide)
    · have hDigit := Nat.isDigit_of_mem_toDigits (by decide) (by decide) hMem
      exact absurd hDigit (by decide)
  · exact hRows row hRow

/-- A script that is written line by line is read back as it was. -/
theorem parse_written {seed : Option ℕ}
    (hSeed : ∀ n, seed = some n → (Nat.toDigits 10 n).length ≤ digitLimit) {events : List Event}
    {rows : List (List Char)} (h : List.Forall₂ Event.WrittenAs events rows) :
    parse (unlines (scriptRows seed rows)) = .ok ⟨seed.map fun n => (n : ℤ), events⟩ := by
  obtain ⟨r, hRead, hKept⟩ := readLines_scriptRows hSeed h
  by_cases hEmpty : scriptRows seed rows = []
  · -- no line at all still makes one blank line
    obtain ⟨hNone, rfl⟩ := List.append_eq_nil_iff.mp hEmpty
    cases h
    cases seed with
    | none => rfl
    | some n => cases hNone
  · have hLines := lines_unlines hEmpty (newline_not_mem_of_mem_scriptRows h)
    rw [parse, hLines, hRead, ← hKept]

/-- A page with brackets in a state and in words, and a character that is named like a seed. -/
def pageRows : List (List Char) :=
  ["@hall-2".toList, "seed: [a[b] 5] x".toList, "mario: [shot: wide: ...]".toList,
    "seed: [so:] [...]".toList]

def pageEvents : List Event :=
  [.location "hall-2", .text (some "seed") (some "a[b") "5] x", .shot "wide: ...",
    .pause (some "seed") (some "so:") none]

theorem page_written : List.Forall₂ Event.WrittenAs pageEvents pageRows := by
  have hSeed : IsWord "seed".toList := by decide
  have hBracket : IsState "a[b".toList :=
    ⟨⟨by decide, by decide, by decide⟩, by decide, (keyed?_eq_none_iff (by decide)).mp rfl⟩
  have hColon : IsState "so:".toList :=
    ⟨⟨by decide, by decide, by decide⟩, by decide, (keyed?_eq_none_iff (by decide)).mp rfl⟩
  refine .cons ?_ (.cons ?_ (.cons ?_ (.cons ?_ .nil)))
  · exact @Event.WrittenAs.location "hall-2".toList (by decide)
  · refine @Event.WrittenAs.text "seed".toList "a[b".toList "5] x".toList hSeed hBracket ?_
    exact ⟨by decide, ⟨by rintro c ⟨⟩; decide, by rintro c ⟨⟩; decide⟩, by decide, by decide,
      by rintro c ⟨⟩; decide⟩
  · refine @Event.WrittenAs.shot "mario".toList "wide: ...".toList (by decide) ?_ ?_
    · exact ⟨by decide, by decide, by decide⟩
    · rintro c ⟨⟩
      decide
  · exact @Event.WrittenAs.pause "seed".toList "so:".toList hSeed hColon

theorem page_read :
    (∀ n, some 41 = some n → (Nat.toDigits 10 n).length ≤ digitLimit) ∧
      List.Forall₂ Event.WrittenAs pageEvents pageRows ∧
      parse (unlines (scriptRows (some 41) pageRows)) = .ok ⟨some 41, pageEvents⟩ := by
  have hDigits : ∀ n, some 41 = some n → (Nat.toDigits 10 n).length ≤ digitLimit := by
    rintro n ⟨⟩
    decide
  exact ⟨hDigits, page_written, parse_written hDigits page_written⟩

end Script

end Radioplay
