import Radioplay.Proofs.Artifact.RoundTrip
import Radioplay.Proofs.FileTree.Distinct
import Radioplay.Proofs.Manifest.Again

/-! Manifests that are written and read. What a scan gives comes back from its file as it was, and
the file is no part of what is scanned; so a manifest that is read answers as a new scan does. -/

namespace Radioplay.Manifest

open FileTree

variable {t t' : FileTree} {assets path now : String}

/-! ## The value of a scan -/

section

variable (room : ℕ)

theorem names_isExact (l : List String) : (names l).IsExact (room + 1) := by
  refine .arr fun v hv => ?_
  obtain ⟨s, -, rfl⟩ := List.mem_map.mp hv
  exact .str s

theorem scanState_isExact (t : FileTree) (path : String) :
    (scanState t path).IsExact (room + 2) := by
  refine .obj (show ["audio", "video"].Nodup by decide) ?_
  simp only [List.forall_mem_cons]
  exact ⟨names_isExact room _, names_isExact room _, fun _ h => nomatch h⟩

/-- A table made of some of the names in a folder names each once. -/
theorem keys_nodup (hDistinct : t.IsDistinct) (path : String) (p : String → Bool)
    (f : String → Value) :
    ((((t.namesAt path).filter p).map fun x => (x, f x)).map Prod.fst).Nodup := by
  rw [List.map_map]
  exact (List.map_id _).symm ▸ (hDistinct.namesAt_nodup path).filter p

theorem scanStates_isExact (hDistinct : t.IsDistinct) (path : String) :
    (Value.obj (scanStates t path)).IsExact (room + 3) := by
  refine .obj (keys_nodup hDistinct path _ _) fun f hf => ?_
  obtain ⟨s, -, rfl⟩ := List.mem_map.mp hf
  exact scanState_isExact room t _

theorem scan_isExact (hDistinct : t.IsDistinct) (assets : String) :
    (scan t assets).IsExact (room + 5) := by
  refine .obj (keys_nodup hDistinct _ _ _) fun f hf => ?_
  obtain ⟨c, -, rfl⟩ := List.mem_map.mp hf
  refine .obj (List.nodup_singleton _) ?_
  simp only [List.forall_mem_singleton]
  exact scanStates_isExact room hDistinct _

/-- A manifest that is scanned has texts alone in it, and no name twice. -/
theorem generate_isExact (hDistinct : t.IsDistinct) (now assets : String) :
    (generate t now assets).IsExact (room + 6) := by
  refine .obj (show ["generated", "characters"].Nodup by decide) ?_
  simp only [List.forall_mem_cons]
  exact ⟨.str now, scan_isExact room hDistinct assets, fun _ h => nomatch h⟩

end

/-! ## The file of a manifest -/

theorem perform_write_eq_ok :
    (write now assets).perform t = (.ok path, t') ↔ path = filePath assets ∧
      (Artifact.writeValue (filePath assets) (generate t now assets)).perform t = (.ok (), t') := by
  rw [write, Act.perform_bind, Act.perform_get]
  simp only [Act.perform_bind_eq_ok, Act.perform_pure_eq_ok]
  constructor
  · rintro ⟨_, _, hWritten, rfl, rfl⟩
    exact ⟨rfl, hWritten⟩
  · rintro ⟨rfl, hWritten⟩
    exact ⟨(), t', hWritten, rfl, rfl⟩

/-- The file of a manifest is beside what is scanned. -/
theorem scan_of_write (hNamed : t.IsNamed) (h : (write now assets).perform t = (.ok path, t')) :
    scan t' assets = scan t assets := by
  obtain ⟨text, place, -, hFile⟩ := Artifact.putsFile_of_writeValue (perform_write_eq_ok.mp h).2
  have hAlike : AlikeUnder t t' (Path.join assets ["characters"]) :=
    hFile.alikeUnder isName_manifest isName_characters (by decide)
  rw [scan, scan, scanCharacters_eq hFile.extended hNamed hAlike
    (Path.join_ne_empty assets isName_characters)]

theorem exists_written (h : (write now assets).perform t = (.ok path, t')) :
    t'.exists? (filePath assets) = true := by
  obtain ⟨text, place, -, hFile⟩ := Artifact.putsFile_of_writeValue (perform_write_eq_ok.mp h).2
  exact exists?_of_read hFile.read

/-- What the file of a manifest holds is the manifest that was scanned. -/
theorem readValue_written (hDistinct : t.IsDistinct)
    (h : (write now assets).perform t = (.ok path, t')) :
    Artifact.readValue t' (filePath assets) = .ok (generate t now assets) :=
  Artifact.readValue_of_writeValue (generate_isExact 979 hDistinct now assets)
    (perform_write_eq_ok.mp h).2

theorem load_written (hDistinct : t.IsDistinct)
    (h : (write now assets).perform t = (.ok path, t')) (now' : String) :
    load t' now' assets = .ok (generate t now assets) := by
  rw [load, if_pos (exists_written h), readValue_written hDistinct h]

theorem load_unwritten (hNew : t.exists? (filePath assets) = false) (now : String) :
    load t now assets = .ok (generate t now assets) := by
  rw [load, hNew]
  rfl

theorem exists_write (hDistinct : t.IsDistinct)
    (hWritable : (t.write (filePath assets) []).isOk = true) (now : String) :
    ∃ t', (write now assets).perform t = (.ok (filePath assets), t') := by
  have hPrint := Json.print_eq_ok.mpr (Json.write_exact (generate_isExact 0 hDistinct now assets))
  obtain ⟨t', hWritten⟩ := Artifact.exists_writeValue hPrint hWritable
  exact ⟨t', perform_write_eq_ok.mpr ⟨rfl, hWritten⟩⟩

/-- A manifest is written to its file and read from there, and the characters in it are those of a
scan before or after. The clip found by either manifest is the same, and neither is ever at
fault. -/
theorem load_agrees (hNamed : t.IsNamed) (hDistinct : t.IsDistinct)
    (hNew : t.exists? (filePath assets) = false)
    (hWritable : (t.write (filePath assets) []).isOk = true) (now : String) :
    ∃ t', (write now assets).perform t = (.ok (filePath assets), t') ∧
      t'.exists? (filePath assets) = true ∧ scan t' assets = scan t assets ∧
      ∀ now₁ now₂, ∃ scanned read,
        load t now₁ assets = .ok scanned ∧ load t' now₂ assets = .ok read ∧
        Artifact.readValue t' (filePath assets) = .ok read ∧
        scanned.field? "characters" = .ok (some (scan t assets)) ∧
        read.field? "characters" = .ok (some (scan t assets)) ∧
        ∀ character state log, ∃ clip warnings,
          (resolve scanned assets character state).perform log = (.ok clip, warnings) ∧
          (resolve read assets character state).perform log = (.ok clip, warnings) := by
  obtain ⟨t', hWritten⟩ := exists_write hDistinct hWritable now
  refine ⟨t', hWritten, exists_written hWritten, scan_of_write hNamed hWritten,
    fun now₁ now₂ => ?_⟩
  refine ⟨generate t now₁ assets, generate t now assets, load_unwritten hNew now₁,
    load_written hDistinct hWritten now₂, readValue_written hDistinct hWritten, rfl, rfl,
    fun character state log => ?_⟩
  have hSame : resolve (generate t now assets) assets character state =
      resolve (generate t now₁ assets) assets character state := resolve_congr rfl _ _ _
  have hClip := resolve_scanned hNamed now₁ assets character state log
  rw [hSame]
  generalize (resolve (generate t now₁ assets) assets character state).perform log = run at hClip ⊢
  obtain ⟨outcome, warnings⟩ := run
  cases hClip
  exact ⟨_, warnings, rfl, rfl⟩

theorem castTree_isDistinct : castTree.IsDistinct := by
  rw [IsDistinct]
  decide

/-- The manifest of two characters is written to their folder, and answers as a scan did. -/
theorem load_agrees_castTree :
    (castTree.IsNamed ∧ castTree.IsDistinct ∧
      castTree.exists? (filePath "assets") = false ∧
      (castTree.write (filePath "assets") []).isOk = true) ∧
    ∃ t', (write "now" "assets").perform castTree = (.ok "assets/manifest.json", t') ∧
      t'.exists? "assets/manifest.json" = true ∧ scan t' "assets" = scan castTree "assets" ∧
      ∃ scanned read, load castTree "later" "assets" = .ok scanned ∧
        load t' "later" "assets" = .ok read ∧
        Artifact.readValue t' "assets/manifest.json" = .ok read ∧
        ∃ clip warnings,
          (resolve scanned "assets" "Luigi" "ANGRY").perform [] = (.ok clip, warnings) ∧
          (resolve read "assets" "Luigi" "ANGRY").perform [] = (.ok clip, warnings) := by
  have hNew : castTree.exists? (filePath "assets") = false := by decide
  have hWritable : (castTree.write (filePath "assets") []).isOk = true := by decide
  have hPath : filePath "assets" = "assets/manifest.json" := by decide
  obtain ⟨t', hWritten, hThere, hScan, hLoad⟩ :=
    load_agrees castTree_isNamed castTree_isDistinct hNew hWritable "now"
  obtain ⟨scanned, read, hScanned, hRead, hFile, -, -, hResolve⟩ := hLoad "later" "later"
  rw [hPath] at hWritten hThere hFile
  exact ⟨⟨castTree_isNamed, castTree_isDistinct, hNew, hWritable⟩, t', hWritten, hThere, hScan,
    scanned, read, hScanned, hRead, hFile, hResolve "Luigi" "ANGRY" []⟩

end Radioplay.Manifest
