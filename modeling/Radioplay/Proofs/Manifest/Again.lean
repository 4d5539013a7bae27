import Radioplay.Proofs.FileTree.Alike
import Radioplay.Proofs.Manifest.Resolution

/-! A manifest loaded again. As long as the asset tree is left alone, what has been written
elsewhere changes no clip that is found by it, and neither does the time of a new scan. -/

namespace Radioplay.Manifest

open FileTree

variable {t t' : FileTree} {assets base path x : String}

theorem isName_video : IsName "video" := by decide

theorem isName_manifest : IsName "manifest.json" := by decide

theorem isFolder_join_eq (h : AlikeUnder t t' base) (hx : IsName x) :
    t'.isFolder (Path.join base [x]) = t.isFolder (Path.join base [x]) := by
  rw [isFolder, isFolder, h.find?_eq hx]

section

variable (hGrown : Extends t t')
include hGrown

theorem filesIn_eq (h : AlikeUnder t t' base) (hx : IsName x) (extensions : List String) :
    filesIn t' (Path.join base [x]) extensions = filesIn t (Path.join base [x]) extensions := by
  rw [filesIn, filesIn, (h.join hx).namesAt_eq hGrown (Path.join_ne_empty base hx)]

theorem scanState_eq (h : AlikeUnder t t' base) : scanState t' base = scanState t base := by
  rw [scanState, scanState, filesIn_eq hGrown h isName_audio, filesIn_eq hGrown h isName_video]

variable (hNamed : t.IsNamed)
include hNamed

theorem scanStates_eq (h : AlikeUnder t t' path) (hPath : path ≠ "") :
    scanStates t' path = scanStates t path := by
  have hFolders : (t.namesAt path).filter (fun s => t'.isFolder (Path.join path [s])) =
      (t.namesAt path).filter (fun s => t.isFolder (Path.join path [s])) :=
    List.filter_congr fun s hs => isFolder_join_eq h (hNamed.of_mem_namesAt hs)
  rw [scanStates, scanStates, h.namesAt_eq hGrown hPath, hFolders]
  refine List.map_congr_left fun s hs => ?_
  rw [scanState_eq hGrown (h.join (hNamed.of_mem_namesAt (List.mem_of_mem_filter hs)))]

theorem scanCharacters_eq (h : AlikeUnder t t' path) (hPath : path ≠ "") :
    scanCharacters t' path = scanCharacters t path := by
  have hStates {c : String} (hc : c ∈ t.namesAt path) :
      AlikeUnder t t' (Path.join path [c, "states"]) ∧ Path.join path [c, "states"] ≠ "" ∧
        t'.isFolder (Path.join path [c, "states"]) = t.isFolder (Path.join path [c, "states"]) := by
    have hBelow := h.join (hNamed.of_mem_namesAt hc)
    rw [Path.join_cons]
    exact ⟨hBelow.join isName_states, Path.join_ne_empty _ isName_states,
      isFolder_join_eq hBelow isName_states⟩
  have hFolders : (t.namesAt path).filter (fun c => t'.isFolder (Path.join path [c, "states"])) =
      (t.namesAt path).filter (fun c => t.isFolder (Path.join path [c, "states"])) :=
    List.filter_congr fun c hc => (hStates hc).2.2
  rw [scanCharacters, scanCharacters, h.namesAt_eq hGrown hPath, hFolders]
  refine List.map_congr_left fun c hc => ?_
  obtain ⟨hAlike, hNe, -⟩ := hStates (List.mem_of_mem_filter hc)
  rw [scanStates_eq hGrown hNamed hAlike hNe]

theorem scan_eq (h : AlikeUnder t t' assets) : scan t' assets = scan t assets := by
  rw [scan, scan, scanCharacters_eq hGrown hNamed (h.join isName_characters)
    (Path.join_ne_empty assets isName_characters)]

end

/-- A manifest answers by its characters alone. -/
theorem resolve_congr {m m' : Value}
    (h : fieldOr m' "characters" (.obj []) = fieldOr m "characters" (.obj []))
    (assets character state : String) :
    resolve m' assets character state = resolve m assets character state := by
  unfold resolve
  rw [h]

/-- Where the asset tree is as it was, the manifest can be loaded again, at any time, and answers as
it did. -/
theorem load_again (hGrown : Extends t t') (hNamed : t.IsNamed) (h : AlikeUnder t t' assets)
    {now : String} {m : Value} (hLoad : load t now assets = .ok m) (now' : String) :
    ∃ m', load t' now' assets = .ok m' ∧
      ∀ character state, resolve m' assets character state = resolve m assets character state := by
  have hFind : t'.find? (filePath assets) = t.find? (filePath assets) :=
    h.find?_eq isName_manifest
  rw [load] at hLoad
  simp only [load, exists?, hFind]
  split at hLoad
  · rename_i hThere
    have hThere' : (t.find? (filePath assets)).isSome = true := hThere
    rw [if_pos hThere']
    obtain ⟨bytes, hRead, hRest⟩ := bind_eq_ok.mp hLoad
    have hRead' : t'.read (filePath assets) = .ok bytes := by
      rw [read_eq_ok_iff, ← find?_eq_some_iff] at hRead ⊢
      rw [hFind]
      exact hRead
    exact ⟨m, bind_eq_ok.mpr ⟨bytes, hRead', hRest⟩, fun _ _ => rfl⟩
  · rename_i hThere
    have hThere' : ¬ (t.find? (filePath assets)).isSome = true := hThere
    rw [if_neg hThere']
    cases hLoad
    refine ⟨_, rfl, resolve_congr ?_ assets⟩
    rw [generate, generate, scan_eq hGrown hNamed h]
    rfl

end Radioplay.Manifest
