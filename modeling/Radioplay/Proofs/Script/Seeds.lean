import Radioplay.Proofs.Script.Grammar
import Radioplay.Proofs.Script.Reading

/-! The seed lines of a text. Nothing else in a text bears on the seed of its script, which is the
number on the last of them, and nothing else can keep a text from being read: that takes a seed line
with more digits than a numeral may have, and it is the first such line that is told of. -/

namespace Radioplay.Script

open Text

def numeral? : Line → Option (List Char)
  | .seed digits => some digits
  | _ => none

/-- The digits on the seed lines of a text, in order. -/
def numerals (text : List Char) : List (List Char) :=
  ((lines text).map Line.ofRaw).filterMap numeral?

/-- The number on the last seed line. -/
def declaredSeed? (text : List Char) : Option Int :=
  (numerals text).getLast?.map fun digits => (digitsValue digits : Int)

def isOverlong (digits : List Char) : Bool := decide (digitLimit < digits.length)

variable {r r' : Reading} {events : List Event} {fault : Fault}

theorem readLine_digits (r : Reading) (digits : List Char) :
    readLine r (.seed digits) =
      if isOverlong digits then .error (.numeralTooLong digits.length)
      else .ok ([], { r with seed := some (digitsValue digits : Int) }) := by
  by_cases hLong : digitLimit < digits.length
  · simp only [readLine, seedValue, isOverlong, hLong, decide_true, if_true]
  · simp only [readLine, seedValue, isOverlong, hLong, decide_false, if_false, Bool.false_eq_true]

/-! ### The seed -/

theorem readLine_seed {line : Line} (h : readLine r line = .ok (events, r')) :
    r'.seed = ((numeral? line).map fun digits => (digitsValue digits : Int)).or r.seed := by
  cases line with
  | seed digits =>
    rw [readLine_digits] at h
    split at h
    · cases h
    · cases h
      rfl
  | _ =>
    cases h
    rfl

/-- The induction over the lines: a seed from before stands where no line gives one. -/
theorem readLines_seed {ls : List Line} (h : readLines r ls = .ok (events, r')) :
    r'.seed = ((ls.filterMap numeral?).getLast?.map fun digits => (digitsValue digits : Int)).or
      r.seed := by
  induction ls generalizing r events with
  | nil =>
    cases h
    rfl
  | cons line rest ih =>
    obtain ⟨first, r₁, more, hLine, hRest, rfl⟩ := readLines_cons_eq_ok.mp h
    rw [ih hRest, readLine_seed hLine, ← Option.or_assoc]
    cases hNumeral : numeral? line with
    | none => rw [List.filterMap_cons_none hNumeral, Option.map_none, Option.or_none]
    | some digits =>
      rw [List.filterMap_cons_some hNumeral, List.getLast?_cons]
      cases (rest.filterMap numeral?).getLast? <;> rfl

theorem parse_seed {text : List Char} {script : Script} (h : parse text = .ok script) :
    script.seed = declaredSeed? text := by
  obtain ⟨r, hRead, hSeed⟩ := parse_eq_ok.mp h
  rw [hSeed, readLines_seed hRead, Reading.start, Option.or_none]
  rfl

/-! ### Faults -/

theorem readLine_eq_error {line : Line} :
    readLine r line = .error fault ↔
      ∃ digits, numeral? line = some digits ∧ isOverlong digits = true ∧
        fault = .numeralTooLong digits.length := by
  cases line with
  | seed digits =>
    rw [readLine_digits]
    cases hLong : isOverlong digits with
    | false => simp [numeral?, hLong]
    | true => simp [numeral?, hLong, eq_comm (a := fault)]
  | _ => simp [readLine, numeral?]

/-- The induction over the lines: those before the first overlong numeral are read. -/
theorem readLines_eq_error {ls : List Line} :
    readLines r ls = .error fault ↔
      ∃ digits, (ls.filterMap numeral?).find? isOverlong = some digits ∧
        fault = .numeralTooLong digits.length := by
  induction ls generalizing r with
  | nil => simp [readLines]
  | cons line rest ih =>
    rw [readLines_cons_eq_error]
    rcases hLine : readLine r line with fault' | ⟨first, r₁⟩
    · obtain ⟨digits, hNumeral, hLong, rfl⟩ := readLine_eq_error.mp hLine
      rw [List.filterMap_cons_some hNumeral, List.find?_cons_of_pos hLong]
      simp [eq_comm]
    · have hKept : ((line :: rest).filterMap numeral?).find? isOverlong =
          (rest.filterMap numeral?).find? isOverlong := by
        cases hNumeral : numeral? line with
        | none => rw [List.filterMap_cons_none hNumeral]
        | some digits =>
          have hShort : ¬isOverlong digits = true := by
            intro hLong
            rw [readLine_eq_error.mpr ⟨digits, hNumeral, hLong, rfl⟩] at hLine
            cases hLine
          rw [List.filterMap_cons_some hNumeral, List.find?_cons_of_neg hShort]
      rw [hKept, ← ih (r := r₁)]
      simp

/-- A text is read just if no seed line in it is overlong. Else the fault tells how many digits the
first such line has. -/
theorem parse_unless_overlong (text : List Char) :
    ((∃ script, parse text = .ok script) ↔ ∀ digits ∈ numerals text, isOverlong digits = false) ∧
      ∀ fault, parse text = .error fault ↔
        ∃ digits, (numerals text).find? isOverlong = some digits ∧
          fault = .numeralTooLong digits.length := by
  have hFault (fault : Fault) : parse text = .error fault ↔
      ∃ digits, (numerals text).find? isOverlong = some digits ∧
        fault = .numeralTooLong digits.length := by
    rw [parse_eq_error, readLines_eq_error, numerals]
  have hNone : (∀ digits ∈ numerals text, isOverlong digits = false) ↔
      (numerals text).find? isOverlong = none := by
    simp
  refine ⟨?_, hFault⟩
  rw [hNone]
  constructor
  · rintro ⟨script, hOk⟩
    rcases hFound : (numerals text).find? isOverlong with _ | digits
    · rfl
    · rw [(hFault _).mpr ⟨digits, hFound, rfl⟩] at hOk
      cases hOk
  · intro hNotFound
    rcases hParse : parse text with fault | script
    · obtain ⟨digits, hFound, -⟩ := (hFault fault).mp hParse
      rw [hNotFound] at hFound
      cases hFound
    · exact ⟨script, rfl⟩

/-- One digit more than are read. -/
theorem parse_longSeed :
    parse ("seed: ".toList ++ List.replicate 4301 '1') = .error (.numeralTooLong 4301) := by
  have hDigits : ∀ c ∈ List.replicate 4301 '1', c.isDigit = true := by
    intro c hc
    rw [List.eq_of_mem_replicate hc]
    rfl
  have hLine : '\n' ∉ "seed: ".toList ++ List.replicate 4301 '1' := by
    rw [List.mem_append, not_or]
    exact ⟨by decide, fun hMem => absurd (hDigits _ hMem) (by decide)⟩
  have hLong : isOverlong (List.replicate 4301 '1') = true := by
    rw [isOverlong, List.length_replicate]
    rfl
  have hNe : List.replicate 4301 '1' ≠ [] := by
    rw [ne_eq, List.replicate_eq_nil_iff]
    decide
  rw [parse_eq_error, lines_of_not_mem hLine, List.map_singleton, ofRaw_seed hNe hDigits,
    readLines_cons_eq_error, readLine_eq_error]
  exact .inl ⟨_, rfl, hLong, by rw [List.length_replicate]⟩

end Radioplay.Script
