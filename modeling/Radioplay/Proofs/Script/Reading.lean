import Radioplay.Proofs.Text.Lines
import Radioplay.Script.Parse

/-! What it takes for lines to be read, and for a text: each line is read by what the lines before
it have left, and the first fault ends it. Lines that a text is made of are read as they are; where
there are none, the text has one blank line, which adds nothing. -/

namespace Radioplay.Script

open Text

variable {r r' : Reading} {line : Line} {rest : List Line}

theorem readLines_cons_eq_ok {events : List Event} :
    readLines r (line :: rest) = .ok (events, r') ↔
      ∃ first r₁ more, readLine r line = .ok (first, r₁) ∧ readLines r₁ rest = .ok (more, r') ∧
        events = first ++ more := by
  constructor
  · intro h
    rw [readLines] at h
    split at h
    · cases h
    · rename_i first r₁ hLine
      split at h
      · cases h
      · rename_i more r₂ hRest
        cases h
        exact ⟨first, r₁, more, hLine, hRest, rfl⟩
  · rintro ⟨first, r₁, more, hLine, hRest, rfl⟩
    simp only [readLines, hLine, hRest]

theorem readLines_cons_eq_error {fault : Fault} :
    readLines r (line :: rest) = .error fault ↔
      readLine r line = .error fault ∨
        ∃ first r₁, readLine r line = .ok (first, r₁) ∧ readLines r₁ rest = .error fault := by
  rw [readLines]
  rcases readLine r line with fault | ⟨first, r₁⟩
  · simp
  · rcases hRest : readLines r₁ rest with fault | ⟨more, r₂⟩ <;> simp [hRest]

theorem readLines_append_congr {xs ys : List Line}
    (h : ∀ r, readLines r xs = readLines r ys) (front : List Line) (r : Reading) :
    readLines r (front ++ xs) = readLines r (front ++ ys) := by
  induction front generalizing r with
  | nil => exact h r
  | cons line front ih => simp only [List.cons_append, readLines, ih]

theorem parse_eq_ok {text : List Char} {script : Script} :
    parse text = .ok script ↔
      ∃ r, readLines .start ((lines text).map Line.ofRaw) = .ok (script.events, r) ∧
        script.seed = r.seed := by
  rw [parse]
  rcases readLines .start ((lines text).map Line.ofRaw) with fault | ⟨events, r⟩
  · simp
  · obtain ⟨seed, events'⟩ := script
    simp [and_comm, eq_comm]

theorem parse_eq_error {text : List Char} {fault : Fault} :
    parse text = .error fault ↔
      readLines .start ((lines text).map Line.ofRaw) = .error fault := by
  rw [parse]
  rcases readLines .start ((lines text).map Line.ofRaw) with fault' | ⟨events, r⟩ <;> simp

theorem readLines_lines_unlines {rows : List (List Char)} (h : ∀ row ∈ rows, '\n' ∉ row)
    (r : Reading) :
    readLines r ((lines (unlines rows)).map Line.ofRaw) = readLines r (rows.map Line.ofRaw) := by
  by_cases hNone : rows = []
  · rw [hNone]
    rfl
  · rw [lines_unlines hNone h]

end Radioplay.Script
