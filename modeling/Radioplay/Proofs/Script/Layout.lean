import Radioplay.Proofs.Script.Seeds

/-! The layout of a script. White space at the ends of lines, the way lines end, and lines that add
nothing say nothing: a text that is laid out anew is read to the same script. Seed lines that are
put in or left out bear on the seed alone. -/

namespace Radioplay

open Text Script

/-- The shapes of lines, each as it is written. -/
inductive Line.HasShape : List Char → Prop
  | comment (rest : List Char) : HasShape ('#' :: rest)
  | seed {gap digits : List Char} (hGap : ∀ c ∈ gap, isSpace c = true) (hNe : digits ≠ [])
    (hDigits : ∀ c ∈ digits, c.isDigit = true) : HasShape ("seed:".toList ++ (gap ++ digits))
  | location {name : List Char} (hName : IsPlace name) : HasShape ('@' :: name)
  | dialogue {character : List Char} (hCharacter : IsWord character) (said : List Char) :
    HasShape (character ++ ':' :: said)

namespace Line

variable {s : List Char}

theorem hasShape_of_seed? {digits : List Char} (h : seed? s = some digits) : HasShape s := by
  unfold seed? at h
  split at h
  · rename_i rest
    simp only at h
    split at h
    · rename_i hDigits
      simp only [Bool.and_eq_true, Bool.not_eq_true', List.isEmpty_eq_false_iff, List.all_eq_true]
        at hDigits
      rw [← List.takeWhile_append_dropWhile (p := isSpace) (l := rest)]
      exact .seed (fun c hc => List.mem_takeWhile_imp hc) hDigits.1 hDigits.2
    · cases h
  · cases h

theorem hasShape_of_location? {name : List Char} (h : location? s = some name) : HasShape s := by
  have hName := of_location? h
  unfold location? at h
  split at h
  · split at h
    · cases h
      exact .location hName
    · cases h
  · cases h

theorem hasShape_of_dialogue? {character text : List Char}
    (h : dialogue? s = some (character, text)) : HasShape s := by
  have hCharacter := (of_dialogue? h).1
  simp only [dialogue?] at h
  split at h
  · rename_i c cs rest hTake hDrop
    cases h
    rw [← List.takeWhile_append_dropWhile (p := isWordChar) (l := s), hDrop]
    exact .dialogue hCharacter rest
  · cases h

/-- The text of a seed line is dialogue, too, by its shape; the order of the shapes decides. -/
theorem dialogue?_eq_none_of_other (h : classify s = .other) : dialogue? s = none := by
  unfold classify at h
  split at h
  · cases h
  · split at h
    · cases h
    · split at h
      · cases h
      · split at h
        · cases h
        · split at h
          · cases h
          · assumption

theorem not_hasShape_of_other (h : classify s = .other) : ¬HasShape s := by
  intro hShape
  have hNone := dialogue?_eq_none_of_other h
  cases hShape with
  | comment rest => cases h
  | @seed gap digits hGap hNe hDigits =>
    rw [classify_seed hGap hNe hDigits] at h
    cases h
  | location hName =>
    rw [classify_location hName] at h
    cases h
  | dialogue hCharacter said =>
    rw [dialogue?_append hCharacter said] at hNone
    cases hNone

/-- A line that is not empty is dropped just if it has none of the shapes. -/
theorem classify_eq_other_iff : classify s = .other ↔ s ≠ [] ∧ ¬HasShape s := by
  constructor
  · intro h
    refine ⟨?_, not_hasShape_of_other h⟩
    rintro rfl
    cases h
  · rintro ⟨hNe, hNone⟩
    have hComment : s.head? ≠ some '#' := by
      intro hHead
      obtain ⟨rest, rfl⟩ := List.head?_eq_some_iff.mp hHead
      exact hNone (.comment rest)
    unfold classify
    rw [if_neg (by simpa using hNe), if_neg hComment]
    split
    · rename_i hSeed
      exact absurd (hasShape_of_seed? hSeed) hNone
    · split
      · rename_i hLocation
        exact absurd (hasShape_of_location? hLocation) hNone
      · split
        · rename_i hDialogue
          exact absurd (hasShape_of_dialogue? hDialogue) hNone
        · rfl

end Line

namespace Script

variable {row : List Char}

/-- A row that adds nothing to a script: it is blank, it is a comment, or it has no shape. -/
def IsIdle (row : List Char) : Prop :=
  cleaned row = [] ∨ (cleaned row).head? = some '#' ∨ ¬Line.HasShape (cleaned row)

/-- A row that declares a seed with no more digits than are read. -/
def IsSeedRow (row : List Char) : Prop :=
  ∃ gap digits, cleaned row = "seed:".toList ++ (gap ++ digits) ∧ (∀ c ∈ gap, isSpace c = true) ∧
    digits ≠ [] ∧ (∀ c ∈ digits, c.isDigit = true) ∧ digits.length ≤ digitLimit

/-- Two rows that differ in nothing but the white space at their ends. -/
def SameInk (row row' : List Char) : Prop :=
  ∃ left right left' right' ink, row = left ++ (ink ++ right) ∧ row' = left' ++ (ink ++ right') ∧
    ∀ c ∈ (left ++ right) ++ (left' ++ right'), isBlank c = true

/-- Rows laid out anew: those that may go are put in and left out anywhere, and the others keep
their ink. -/
inductive Relaid (MayGo : List Char → Prop) : List (List Char) → List (List Char) → Prop
  | nil : Relaid MayGo [] []
  | keep {row row' : List Char} {rows rows' : List (List Char)} (hInk : SameInk row row')
    (hRest : Relaid MayGo rows rows') : Relaid MayGo (row :: rows) (row' :: rows')
  | put {row : List Char} {rows rows' : List (List Char)} (hRow : MayGo row)
    (hRest : Relaid MayGo rows rows') : Relaid MayGo rows (row :: rows')
  | drop {row : List Char} {rows rows' : List (List Char)} (hRow : MayGo row)
    (hRest : Relaid MayGo rows rows') : Relaid MayGo (row :: rows) rows'

/-- A text with these rows as its lines, of which each ends with a newline, or with a carriage
return and a newline. The last one may do without an end. -/
inductive Writes : List (List Char) → List Char → Prop
  | nil : Writes [] []
  | last {row : List Char} (hRow : '\n' ∉ row) : Writes [row] row
  | newline {row text : List Char} {rows : List (List Char)} (hRow : '\n' ∉ row)
    (hRest : Writes rows text) : Writes (row :: rows) (row ++ '\n' :: text)
  | carriageReturn {row text : List Char} {rows : List (List Char)} (hRow : '\n' ∉ row)
    (hRest : Writes rows text) : Writes (row :: rows) (row ++ '\r' :: '\n' :: text)

/-! ### Rows -/

theorem ofRaw_of_isIdle (h : IsIdle row) :
    Line.ofRaw row = .blank ∨ Line.ofRaw row = .comment ∨ Line.ofRaw row = .other := by
  by_cases hEmpty : cleaned row = []
  · rw [Line.ofRaw, hEmpty]
    exact .inl rfl
  · rcases h with hBlank | hComment | hNone
    · exact absurd hBlank hEmpty
    · obtain ⟨rest, hRest⟩ := List.head?_eq_some_iff.mp hComment
      rw [Line.ofRaw, hRest]
      exact .inr (.inl rfl)
    · exact .inr (.inr (Line.classify_eq_other_iff.mpr ⟨hEmpty, hNone⟩))

theorem SameInk.ofRaw_eq {row row' : List Char} (h : SameInk row row') :
    Line.ofRaw row = Line.ofRaw row' := by
  obtain ⟨left, right, left', right', ink, rfl, rfl, hBlank⟩ := h
  simp only [List.forall_mem_append] at hBlank
  obtain ⟨⟨hLeft, hRight⟩, hLeft', hRight'⟩ := hBlank
  have hTrim : trim (left ++ (ink ++ right)) = trim (left' ++ (ink ++ right')) := by
    rw [trim, stripEnds_append_left hLeft, stripEnds_append_right hRight, trim,
      stripEnds_append_left hLeft', stripEnds_append_right hRight']
  rw [Line.ofRaw, cleaned, hTrim, Line.ofRaw, cleaned]

theorem readLine_of_isIdle (h : IsIdle row) (r : Reading) :
    readLine r (Line.ofRaw row) = .ok ([], r) := by
  rcases ofRaw_of_isIdle h with hLine | hLine | hLine <;> rw [hLine] <;> rfl

theorem readLines_cons_of_isIdle (h : IsIdle row) (r : Reading) (rest : List Line) :
    readLines r (Line.ofRaw row :: rest) = readLines r rest := by
  simp only [readLines, readLine_of_isIdle h]
  rcases readLines r rest with fault | ⟨events, r'⟩ <;> rfl

theorem readLine_of_isSeedRow (h : IsSeedRow row) (r : Reading) :
    ∃ n, readLine r (Line.ofRaw row) = .ok ([], { r with seed := some n }) := by
  obtain ⟨gap, digits, hRow, hGap, hNe, hDigits, hLength⟩ := h
  have hShort : isOverlong digits = false := decide_eq_false (by omega)
  rw [Line.ofRaw, hRow, classify_seed hGap hNe hDigits, readLine_digits, hShort]
  exact ⟨_, rfl⟩

/-- However the lines end, the rows are what is read. -/
theorem Writes.readLines_eq {rows : List (List Char)} {text : List Char} (h : Writes rows text)
    (r : Reading) :
    readLines r ((lines text).map Line.ofRaw) = readLines r (rows.map Line.ofRaw) := by
  induction h generalizing r with
  | nil => rfl
  | last hRow => rw [lines_of_not_mem hRow]
  | newline hRow hRest ih =>
    rw [lines_append_newline hRow]
    simp only [List.map_cons, readLines, ih]
  | @carriageReturn row text rows hRow hRest ih =>
    have hReturn : '\n' ∉ row ++ ['\r'] := by simp [hRow]
    have hInk : SameInk (row ++ ['\r']) row :=
      ⟨[], ['\r'], [], [], row, rfl, by simp, List.all_eq_true.mp (by decide)⟩
    have hLines := lines_append_newline hReturn text
    rw [List.append_assoc] at hLines
    rw [show row ++ '\r' :: '\n' :: text = row ++ (['\r'] ++ '\n' :: text) from rfl, hLines]
    simp only [List.map_cons, readLines, hInk.ofRaw_eq, ih]

/-! ### Two readings -/

/-- Readings of which a line makes like readings, and which a row that may go leaves like what they
were. -/
structure InStep (MayGo : List Char → Prop) (R : Reading → Reading → Prop) : Prop where
  equivalence : Equivalence R
  kept : ∀ {r r' r₁ : Reading} {line : Line} {events : List Event}, R r r' →
    readLine r line = .ok (events, r₁) → ∃ r₁', readLine r' line = .ok (events, r₁') ∧ R r₁ r₁'
  gone : ∀ {row : List Char}, MayGo row → ∀ r : Reading,
    ∃ r₁, readLine r (Line.ofRaw row) = .ok ([], r₁) ∧ R r r₁

/-- The induction over rows that are laid out anew, read side by side. -/
theorem Relaid.readLines_ok {MayGo : List Char → Prop} {R : Reading → Reading → Prop}
    (hStep : InStep MayGo R) {rows rows' : List (List Char)} (h : Relaid MayGo rows rows')
    {r r' r₁ : Reading} {events : List Event} (hr : R r r')
    (hRead : readLines r (rows.map Line.ofRaw) = .ok (events, r₁)) :
    ∃ r₁', readLines r' (rows'.map Line.ofRaw) = .ok (events, r₁') ∧ R r₁ r₁' := by
  induction h generalizing r r' events with
  | nil =>
    cases hRead
    exact ⟨r', rfl, hr⟩
  | keep hInk _ ih =>
    obtain ⟨first, r₂, more, hLine, hRest, rfl⟩ := readLines_cons_eq_ok.mp hRead
    obtain ⟨r₂', hLine', hr₂⟩ := hStep.kept hr hLine
    obtain ⟨r₁', hRest', hr₁⟩ := ih hr₂ hRest
    rw [hInk.ofRaw_eq] at hLine'
    exact ⟨r₁', readLines_cons_eq_ok.mpr ⟨first, r₂', more, hLine', hRest', rfl⟩, hr₁⟩
  | put hRow _ ih =>
    obtain ⟨r₂', hLine', hr₂⟩ := hStep.gone hRow r'
    obtain ⟨r₁', hRest', hr₁⟩ := ih (hStep.equivalence.trans hr hr₂) hRead
    exact ⟨r₁', readLines_cons_eq_ok.mpr ⟨[], r₂', events, hLine', hRest', rfl⟩, hr₁⟩
  | drop hRow _ ih =>
    obtain ⟨first, r₂, more, hLine, hRest, rfl⟩ := readLines_cons_eq_ok.mp hRead
    obtain ⟨r₃, hGone, hr₃⟩ := hStep.gone hRow r
    rw [hGone] at hLine
    cases hLine
    exact ih (hStep.equivalence.trans (hStep.equivalence.symm hr₃) hr) hRest

theorem inStep_isIdle : InStep IsIdle Eq where
  equivalence := eq_equivalence
  kept := by
    rintro r r' r₁ line events rfl hLine
    exact ⟨r₁, hLine, rfl⟩
  gone hRow r := ⟨r, readLine_of_isIdle hRow r, rfl⟩

/-- Readings that differ in the seed alone. -/
theorem inStep_isSeedRow :
    InStep (fun row => IsIdle row ∨ IsSeedRow row) fun r r' => r.states = r'.states where
  equivalence := ⟨fun _ => rfl, fun h => h.symm, fun h h' => h.trans h'⟩
  kept := by
    rintro ⟨seed, states⟩ ⟨seed', _⟩ r₁ line events rfl hLine
    cases line with
    | seed digits =>
      rw [readLine_digits] at hLine ⊢
      split at hLine
      · cases hLine
      · rename_i hShort
        cases hLine
        exact ⟨_, if_neg hShort, rfl⟩
    | _ =>
      cases hLine
      exact ⟨_, rfl, rfl⟩
  gone := by
    rintro row (hIdle | hSeed) r
    · exact ⟨r, readLine_of_isIdle hIdle r, rfl⟩
    · obtain ⟨n, hLine⟩ := readLine_of_isSeedRow hSeed r
      exact ⟨_, hLine, rfl⟩

/-- A text that is laid out anew is read to the same script. If seed lines are put in or left out
as well, it is read to a script with the same events. -/
theorem parse_relaid {text text' : List Char} {rows : List (List Char)} {script : Script}
    (h : parse text = .ok script) (hText' : Writes rows text') :
    (Relaid IsIdle (lines text) rows → parse text' = .ok script) ∧
      (Relaid (fun row => IsIdle row ∨ IsSeedRow row) (lines text) rows →
        ∃ seed, parse text' = .ok ⟨seed, script.events⟩) := by
  obtain ⟨r, hRead, hSeed⟩ := parse_eq_ok.mp h
  constructor
  · intro hRows
    obtain ⟨_, hRead', rfl⟩ := hRows.readLines_ok inStep_isIdle rfl hRead
    refine parse_eq_ok.mpr ⟨r, ?_, hSeed⟩
    rw [hText'.readLines_eq, hRead']
  · intro hRows
    obtain ⟨r', hRead', -⟩ := hRows.readLines_ok inStep_isSeedRow rfl hRead
    refine ⟨r'.seed, parse_eq_ok.mpr ⟨r', ?_, rfl⟩⟩
    rw [hText'.readLines_eq, hRead']

def note : List Char := "seed: 7\n\nmario: [sad] Hi\n# note\nmario: Bye".toList

def noteScript : Script :=
  ⟨some 7,
    [.text (some "mario") (some "sad") "Hi", .text (some "mario") (some "sad") "Bye"]⟩

/-- The note's lines with other ends, more white space, and a line of no shape. -/
def airyRows : List (List Char) :=
  ["\u2003seed: 7".toList, "  mario: [sad] Hi\u00A0".toList, "??".toList, "mario: Bye".toList]

def airy : List Char :=
  "\u2003seed: 7".toList ++ '\r' :: '\n' :: ("  mario: [sad] Hi\u00A0".toList ++ '\n' ::
    ("??".toList ++ '\r' :: '\n' :: ("mario: Bye".toList ++ '\r' :: '\n' :: [])))

/-- The note's lines with another seed. -/
def reseededRows : List (List Char) :=
  ["mario: [sad] Hi".toList, "seed:\t009 ".toList, "mario: Bye".toList]

def reseeded : List Char :=
  "mario: [sad] Hi".toList ++ '\n' ::
    ("seed:\t009 ".toList ++ '\r' :: '\n' :: "mario: Bye".toList)

theorem note_relaid :
    Relaid IsIdle (lines note) airyRows ∧
      Relaid (fun row => IsIdle row ∨ IsSeedRow row) (lines note) reseededRows := by
  have hInk (row : List Char) : SameInk row row :=
    ⟨[], [], [], [], row, by simp, by simp, fun c hc => absurd hc List.not_mem_nil⟩
  have hBlank : IsIdle [] := .inl rfl
  have hComment : IsIdle "# note".toList := .inr (.inl rfl)
  have hOther : IsIdle "??".toList := .inr (.inr (Line.not_hasShape_of_other rfl))
  have hSeed : IsSeedRow "seed: 7".toList :=
    ⟨" ".toList, "7".toList, rfl, List.all_eq_true.mp (by decide), by decide,
      List.all_eq_true.mp (by decide), by decide⟩
  have hReseed : IsSeedRow "seed:\t009 ".toList :=
    ⟨"\t".toList, "009".toList, rfl, List.all_eq_true.mp (by decide), by decide,
      List.all_eq_true.mp (by decide), by decide⟩
  have hFirst : SameInk "seed: 7".toList "\u2003seed: 7".toList :=
    ⟨[], [], "\u2003".toList, [], "seed: 7".toList, rfl, rfl,
      List.all_eq_true.mp (by decide)⟩
  have hSecond : SameInk "mario: [sad] Hi".toList "  mario: [sad] Hi\u00A0".toList :=
    ⟨[], [], "  ".toList, "\u00A0".toList, "mario: [sad] Hi".toList, rfl, rfl,
      List.all_eq_true.mp (by decide)⟩
  constructor
  · exact .keep hFirst (.drop hBlank (.keep hSecond (.drop hComment (.put hOther
      (.keep (hInk _) .nil)))))
  · exact .drop (.inr hSeed) (.drop (.inl hBlank) (.keep (hInk _) (.drop (.inl hComment)
      (.put (.inr hReseed) (.keep (hInk _) .nil)))))

theorem note_read :
    parse note = .ok noteScript ∧ parse airy = .ok noteScript ∧
      ∃ seed, parse reseeded = .ok ⟨seed, noteScript.events⟩ := by
  have hParse : parse note = .ok noteScript := by with_unfolding_all rfl
  have hAiry : Writes airyRows airy :=
    .carriageReturn (by decide) (.newline (by decide) (.carriageReturn (by decide)
      (.carriageReturn (by decide) .nil)))
  have hReseeded : Writes reseededRows reseeded :=
    .newline (by decide) (.carriageReturn (by decide) (.last (by decide)))
  obtain ⟨hIdle, hSeeds⟩ := note_relaid
  exact ⟨hParse, (parse_relaid hParse hAiry).1 hIdle, (parse_relaid hParse hReseeded).2 hSeeds⟩

end Script

end Radioplay
