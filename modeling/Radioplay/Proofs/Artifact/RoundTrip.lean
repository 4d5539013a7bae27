import Mathlib.Algebra.Group.Int.Defs
import Radioplay.Proofs.Artifact.Writing
import Radioplay.Proofs.Json.RoundTrip
import Radioplay.Proofs.Text.Bytes

/-! Artifacts read again. A value that is written to a file is there as its whole text; if it is
exact, it comes back as it was, with its numbers, truth values and the order of its fields. -/

namespace Radioplay

namespace Artifact

variable {t t' : FileTree} {path folder name : String} {v : Value}

/-- Printed characters and newlines come back from a file as they were. -/
theorem ofFile_of_typed {s : List Char} (h : ∀ c ∈ s, Json.IsTyped c) :
    Text.ofFile (Text.encode s) = .ok s := by
  refine Text.ofFile_encode (fun c hc => ?_) fun hReturn => absurd (h _ hReturn) (by decide)
  rcases h c hc with rfl | hPrinted
  · decide
  · omega

/-- What is read from a file that holds the text of a value is what that text stands for. -/
theorem readValue_of_read {text : List Char} (hPrint : Json.print v = .ok text)
    (hRead : t.read path = .ok (Text.encode text)) : readValue t path = Json.parse text := by
  rw [readValue, hRead, ok_bind, ofFile_of_typed (Json.isTyped_of_print hPrint), ok_bind]

theorem readValue_of_writeValue (hExact : v.IsExact Json.depthLimit)
    (h : (writeValue path v).perform t = (.ok (), t')) : readValue t' path = .ok v := by
  obtain ⟨text, place, hPrint, hFile⟩ := putsFile_of_writeValue h
  obtain rfl : Json.valueText 0 v = text :=
    Except.ok.inj ((Json.print_eq_ok.mpr (Json.write_exact hExact)).symm.trans hPrint)
  rw [readValue_of_read hPrint hFile.read, Json.parse_valueText hExact]

/-- An exact value that is written to a file can be read from it, and is what it was. -/
theorem load_of_write (hExact : v.IsExact Json.depthLimit)
    (hWritable : (t.write (Path.join folder [name]) []).isOk = true) :
    ∃ t', (write folder name v).perform t = (.ok (Path.join folder [name]), t') ∧
      load t' folder name = .ok (some v) := by
  have hPrint : Json.print v = .ok (Json.valueText 0 v) :=
    Json.print_eq_ok.mpr (Json.write_exact hExact)
  obtain ⟨t', hWritten⟩ := exists_writeValue hPrint hWritable
  obtain ⟨text, place, -, hFile⟩ := putsFile_of_writeValue hWritten
  refine ⟨t', perform_write_eq_ok.mpr ⟨rfl, hWritten⟩, ?_⟩
  rw [load, if_pos (FileTree.exists?_of_read hFile.read),
    readValue_of_writeValue hExact hWritten]
  rfl

/-- Names and texts that need every kind of escape, and a number as long as any. -/
def keepsake : Value :=
  .obj [("\"\\\n\x08", .arr [.int (-(10 ^ 4299)), .bool true, .null, .arr [], .obj []]),
    ("♫ 𝄞", .str "\r\n\x7f/"), ("", .obj [("z", .int 7), ("a", .bool false)])]

theorem keepsake_isExact : keepsake.IsExact Json.depthLimit := by
  have hNone {room : ℕ} : ∀ v ∈ ([] : List Value), v.IsExact room := fun _ h => nomatch h
  refine .obj (by decide) ?_
  simp only [List.forall_mem_cons]
  refine ⟨.arr ?_, .str _, .obj (by decide) ?_, fun _ h => nomatch h⟩
  · simp only [List.forall_mem_cons]
    exact ⟨.int (by decide +kernel), .bool true, .null, .arr hNone, .obj (by decide) nofun, hNone⟩
  · simp only [List.forall_mem_cons]
    exact ⟨.int (by decide +kernel), .bool false, fun _ h => nomatch h⟩

/-- It comes back from the place of a file that it replaces. -/
theorem load_keepsake :
    keepsake.IsExact Json.depthLimit ∧
    (FileTree.write ⟨[(["out"], .folder), (["out", "v.json"], .file [91])]⟩
      (Path.join "out" ["v.json"]) []).isOk = true ∧
    ∃ t', (write "out" "v.json" keepsake).perform
        ⟨[(["out"], .folder), (["out", "v.json"], .file [91])]⟩ =
      (.ok (Path.join "out" ["v.json"]), t') ∧ load t' "out" "v.json" = .ok (some keepsake) :=
  ⟨keepsake_isExact, by decide +kernel, load_of_write keepsake_isExact (by decide +kernel)⟩

end Artifact

end Radioplay
