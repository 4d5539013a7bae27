import Radioplay.Proofs.Artifact.Writing

/-! What can go wrong with a file of settings. All of it is told of, but for too many values inside
each other to be read. -/

namespace Radioplay

variable {fault : Fault}

/-- Is a fault one that is reported where settings are read? -/
def Fault.IsTold (fault : Fault) : Prop := (fault.isFileFault || fault.isContentFault) = true

theorem Text.decodeFrom_fault {position : ℕ} {done : List Char} {bytes : List UInt8}
    (h : Text.decodeFrom position done bytes = .error fault) : fault.IsTold := by
  induction position, done, bytes using Text.decodeFrom.induct with
  | case1 position done =>
    rw [Text.decodeFrom] at h
    cases h
  | case2 position done lead rest problem count hProblem =>
    rw [Text.decodeFrom, hProblem] at h
    cases h
    rfl
  | case3 position done lead rest hProblem count ih =>
    rw [Text.decodeFrom, hProblem] at h
    exact ih h

theorem Text.ofFile_fault {bytes : List UInt8} (h : Text.ofFile bytes = .error fault) :
    fault.IsTold :=
  Text.decodeFrom_fault (map_eq_error.mp h)

theorem Json.parse_fault {text : List Char} (h : Json.parse text = .error fault) :
    fault.IsTold ∨ fault = .nestedTooDeep := by
  unfold Json.parse Json.parseWith at h
  split at h
  · cases h
  · rename_i stop hStop
    cases h
    cases stop with
    | problem p remaining => exact .inl rfl
    | tooLong digits => exact .inl rfl
    | tooDeep => exact .inr rfl

namespace FileTree

variable {t : FileTree} {path : String}

theorem mapError_eq_error {α : Type} {found : Except FileProblem α} {f : FileProblem → Fault}
    (h : found.mapError f = .error fault) : ∃ problem, fault = f problem := by
  cases found with
  | ok x => cases h
  | error problem =>
    cases h
    exact ⟨problem, rfl⟩

theorem locate_fault (h : t.locate path = .error fault) : fault.IsTold := by
  unfold locate locateBy at h
  by_cases hNull : '\x00' ∈ path.toList
  · simp only [hNull, if_true] at h
    cases h
    rfl
  · simp only [hNull, if_false] at h
    obtain ⟨problem, rfl⟩ := mapError_eq_error h
    rfl

theorem read_fault (h : t.read path = .error fault) : fault.IsTold := by
  rcases bind_eq_error.mp h with hLocate | ⟨place, -, hNode⟩
  · exact locate_fault hLocate
  · split at hNode <;> cases hNode <;> rfl

end FileTree

namespace Artifact

variable {t : FileTree}

theorem readValue_fault {path : String} (h : readValue t path = .error fault) :
    fault.IsTold ∨ fault = .nestedTooDeep := by
  rcases bind_eq_error.mp h with hRead | ⟨bytes, -, h⟩
  · exact .inl (FileTree.read_fault hRead)
  rcases bind_eq_error.mp h with hText | ⟨text, -, hParse⟩
  · exact .inl (Text.ofFile_fault hText)
  · exact Json.parse_fault hParse

theorem load_fault {folder name : String} (h : load t folder name = .error fault) :
    fault.IsTold ∨ fault = .nestedTooDeep := by
  rw [load] at h
  split at h
  · exact readValue_fault (map_eq_error.mp h)
  · cases h

/-- Whatever keeps settings from being read is told of, unless they are nested too deep. -/
theorem loadTiming_fault {config : Option String} (h : loadTiming t config = .error fault) :
    fault.IsTold ∨ fault = .nestedTooDeep := by
  unfold loadTiming at h
  split at h
  · cases h
  split at h
  · cases h
    exact .inl rfl
  · simp only at h
    split at h
    · rename_i hLoad
      cases h
      exact load_fault hLoad
    · cases h
    · cases h
      exact .inl rfl

end Artifact

end Radioplay
