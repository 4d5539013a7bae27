import Radioplay.Artifact
import Radioplay.Proofs.FileTree.Alike

/-! Artifacts written, and settings read. An artifact is one file put in its place; where it is
there already, writing it again changes nothing. -/

namespace Radioplay

namespace FileTree

variable {t t' : FileTree} {path : String} {text : List Char}

theorem perform_writeText_eq_ok :
    (writeText path text).perform t = (.ok (), t') ↔ t.write path (Text.encode text) = .ok t' := by
  rw [writeText, writeBytes, Act.perform_bind, Act.perform_get]
  cases hWrite : t.write path (Text.encode text) <;> simp [hWrite, Act.perform_fail]

end FileTree

namespace Json

theorem print_eq_ok {v : Value} {text : List Char} :
    print v = .ok text ↔ write v = (text, none) := by
  rw [print]
  rcases write v with ⟨_, _ | fault⟩ <;> simp

end Json

namespace Artifact

variable {t t' : FileTree} {path folder name : String} {v : Value}

/-- A value is written where its file can be emptied and the value has a whole text. -/
theorem perform_writeValue_eq_ok :
    (writeValue path v).perform t = (.ok (), t') ↔
      ∃ emptied text, t.write path [] = .ok emptied ∧ Json.print v = .ok text ∧
        emptied.write path (Text.encode text) = .ok t' := by
  rw [writeValue, Act.perform_bind_eq_ok]
  rcases hWrite : Json.write v with ⟨text, _ | fault⟩
  · have hPrint : Json.print v = .ok text := Json.print_eq_ok.mpr hWrite
    rw [hPrint]
    constructor
    · rintro ⟨_, emptied, hEmptied, hRest⟩
      obtain ⟨_, written, hWritten, hEnd⟩ := Act.perform_bind_eq_ok.mp hRest
      obtain ⟨-, rfl⟩ := Act.perform_pure_eq_ok.mp hEnd
      exact ⟨emptied, text, FileTree.perform_writeText_eq_ok.mp hEmptied, rfl,
        FileTree.perform_writeText_eq_ok.mp hWritten⟩
    · rintro ⟨emptied, text', hEmptied, hText, hWritten⟩
      cases hText
      exact ⟨(), emptied, FileTree.perform_writeText_eq_ok.mpr hEmptied, Act.perform_bind_eq_ok.mpr
        ⟨(), t', FileTree.perform_writeText_eq_ok.mpr hWritten, rfl⟩⟩
  · have hPrint : Json.print v = .error fault := by rw [Json.print, hWrite]
    simp [hPrint, Act.perform_bind_eq_ok]

theorem perform_write_eq_ok {path : String} :
    (write folder name v).perform t = (.ok path, t') ↔
      path = Path.join folder [name] ∧ (writeValue path v).perform t = (.ok (), t') := by
  rw [write, Act.perform_bind_eq_ok]
  constructor
  · rintro ⟨_, written, hWritten, hEnd⟩
    obtain ⟨rfl, rfl⟩ := Act.perform_pure_eq_ok.mp hEnd
    exact ⟨rfl, hWritten⟩
  · rintro ⟨rfl, hWritten⟩
    exact ⟨(), t', hWritten, rfl⟩

/-- A value that has been written is one file, with its whole text. -/
theorem putsFile_of_writeValue (h : (writeValue path v).perform t = (.ok (), t')) :
    ∃ text place, Json.print v = .ok text ∧
      FileTree.PutsFile path (Text.encode text) place t t' := by
  obtain ⟨emptied, text, hEmpty, hPrint, hWrite⟩ := perform_writeValue_eq_ok.mp h
  obtain ⟨place, hEmptied⟩ := FileTree.putsFile_of_write hEmpty
  obtain ⟨place', hWritten⟩ := FileTree.putsFile_of_write hWrite
  exact ⟨text, place, hPrint, hEmptied.trans hWritten⟩

theorem exists_writeValue {text : List Char} (hPrint : Json.print v = .ok text)
    (hEmpty : (t.write path []).isOk = true) :
    ∃ t', (writeValue path v).perform t = (.ok (), t') := by
  obtain ⟨emptied, hWrite⟩ := exists_ok_of_isOk hEmpty
  obtain ⟨t', hText⟩ := FileTree.write_of_write hWrite (Text.encode text)
  exact ⟨t', perform_writeValue_eq_ok.mpr ⟨emptied, text, hWrite, hPrint, hText⟩⟩

/-- A value is written again over itself, and nothing changes. -/
theorem writeValue_again {text : List Char} {place : List String} (hPrint : Json.print v = .ok text)
    (hTrimmed : Path.trimmed path = path) (hLocate : t.locate path = .ok place)
    (hThere : t.node? place = some (.file (Text.encode text))) :
    ∃ t', (writeValue path v).perform t = (.ok (), t') ∧ FileTree.SameNodes t t' := by
  have hNode : t.node? place ≠ some .folder := by simp [hThere]
  have hEmpty : t.write path [] = .ok (t.put place (.file [])) :=
    FileTree.write_eq_ok_iff.mpr ⟨hTrimmed, place, hLocate, hNode, rfl⟩
  obtain ⟨t', hWrite⟩ := FileTree.write_of_write hEmpty (Text.encode text)
  obtain ⟨place', hEmptied⟩ := FileTree.putsFile_of_write hEmpty
  obtain ⟨_, hWritten⟩ := FileTree.putsFile_of_write hWrite
  obtain rfl : place' = place := Except.ok.inj (hEmptied.locate_eq.symm.trans hLocate)
  exact ⟨t', perform_writeValue_eq_ok.mpr ⟨_, text, hEmpty, hPrint, hWrite⟩,
    (hEmptied.trans hWritten).sameNodes hThere⟩

/-! ### Settings -/

/-- An artifact that has been loaded is in a file. -/
theorem load_eq_some {folder name : String} (h : load t folder name = .ok (some v)) :
    ∃ bytes, t.read (Path.join folder [name]) = .ok bytes ∧
      (Text.ofFile bytes >>= Json.parse) = .ok v := by
  rw [load] at h
  split at h
  · obtain ⟨w, hRead, hValue⟩ := map_eq_ok.mp h
    rw [← Option.some.inj hValue]
    exact bind_eq_ok.mp hRead
  · cases h

theorem load_of_read {folder name : String} {bytes : List UInt8}
    (hRead : t.read (Path.join folder [name]) = .ok bytes)
    (hParse : (Text.ofFile bytes >>= Json.parse) = .ok v) : load t folder name = .ok (some v) := by
  rw [load, if_pos (FileTree.exists?_of_read hRead), readValue, hRead, ok_bind, hParse]
  rfl

/-- Settings that are named come from a table in a file, which is looked up from the folder it is
in. -/
theorem loadTiming_eq_ok_iff {path : String} (hPath : path ≠ "") {timing : Timing} :
    loadTiming t (some path) = .ok timing ↔ t.exists? path = true ∧ ∃ fields,
      load t (Path.orHere (Path.parent path)) (Path.baseName path) = .ok (some (.obj fields)) ∧
        Timing.ofTable fields = timing := by
  have hNamed : (some path).filter (fun p => !p.isEmpty) = some path := by simp [hPath]
  rw [loadTiming, hNamed]
  cases hThere : t.exists? path with
  | false => simp [hThere]
  | true =>
    rw [Path.orHere]
    simp only [hThere, Bool.not_true, Bool.false_eq_true, if_false, true_and]
    split <;> simp_all

/-- Settings that have been read are read again as long as their file is left alone. -/
theorem loadTiming_again {config : Option String} {timing : Timing}
    (h : loadTiming t config = .ok timing) (hKeeps : FileTree.KeepsFolders t t')
    (hSame : ∀ path ∈ config, ∀ place, t.locate path = .ok place → (t.node? place).isSome →
      t'.node? place = t.node? place) : loadTiming t' config = .ok timing := by
  cases config with
  | none => exact h
  | some path =>
    by_cases hPath : path = ""
    · subst hPath
      exact h
    obtain ⟨hThere, fields, hLoad, hTiming⟩ := (loadTiming_eq_ok_iff hPath).mp h
    obtain ⟨n, hFind⟩ := Option.isSome_iff_exists.mp (show (t.find? path).isSome = true from hThere)
    obtain ⟨place, hLocate, hNode⟩ := FileTree.find?_eq_some_iff.mp hFind
    have hNode' := hSame path rfl place hLocate (by rw [hNode]; rfl)
    obtain ⟨bytes, hRead, hParse⟩ := load_eq_some hLoad
    obtain ⟨place', hJoined, hFile⟩ := FileTree.read_eq_ok_iff.mp hRead
    obtain rfl : place' = place := FileTree.locate_join_parent hLocate hJoined
    refine (loadTiming_eq_ok_iff hPath).mpr ⟨?_, fields, load_of_read (FileTree.read_eq_ok_iff.mpr
      ⟨place', hKeeps.locate hJoined, hNode'.trans hFile⟩) hParse, hTiming⟩
    have hFind' : t'.find? path = some n :=
      FileTree.find?_eq_some_iff.mpr ⟨place', hKeeps.locate hLocate, hNode'.trans hNode⟩
    rw [FileTree.exists?, hFind']
    rfl

end Artifact

end Radioplay
