import Radioplay.Proofs.Library.Kept
import Radioplay.Proofs.Timeline.Stock

/-! The stock of a library. Over files that stay as they are, what a library can load and what it
tells of a loaded clip is fixed by the files and its settings, whatever has been loaded before. -/

namespace Radioplay

theorem Energy.Cache.getOrCompute_fst_of_none {β : Type} {c : Energy.Cache β} {name : String}
    {compute : Except Fault β} (h : c.get? name = none) :
    (c.getOrCompute name compute).1 = compute := by
  unfold getOrCompute
  rw [h]
  cases compute <;> rfl

namespace Library

variable {α : Type} [Sound.Kit] [Quantity α] {files : FileTree} {settings : Library} {path : String}
  {ps : List String} {s s' : Shelf α}

/-- A file holds a clip that is read, told of in the log and analyzed without a fault. -/
def IsSound (α : Type) [Quantity α] (files : FileTree) (settings : Library) (path : String)
    (raw : Sound.Wave.Raw) : Prop :=
  read files path = .ok raw ∧ (∃ n, readNote path raw = .ok n) ∧
    ∃ points : List α, analyze settings raw = .ok points

/-- What a library under the given settings has to tell of the files. -/
def stock (files : FileTree) (settings : Library)
    (answer : Option String → String → Except Fault (Option String)) : Stock α where
  answer := answer
  IsLoadable path := ∃ raw, IsSound α files settings path raw
  length path := do
    let raw ← read files path
    Sound.Kit.seconds raw
  points path := do
    let raw ← read files path
    analyze settings raw

/-- All clips kept are sound, and the given paths are among them. -/
structure Stocked (files : FileTree) (settings : Library) (paths : List String) (s : Shelf α) :
    Prop where
  kept : Kept files settings s
  sound : ∀ path raw, s.library.clips.get? path = some raw → IsSound α files settings path raw
  loaded : ∀ p ∈ paths, (s.library.clips.get? p).isSome

theorem stocked_empty (files : FileTree) (timing : Timing) (notes : List Note) :
    Stocked files (.ofTiming timing) [] (⟨.ofTiming timing, .empty, notes⟩ : Shelf α) where
  kept := kept_empty files timing notes
  sound _ _ h := by cases h
  loaded _ h := by cases h

theorem Stocked.of_eq (h : Stocked files settings ps s) (hLibrary : s'.library = s.library)
    (hCache : s'.cache = s.cache) : Stocked files settings ps s' where
  kept := h.kept.of_eq hLibrary hCache
  sound := by rw [hLibrary]; exact h.sound
  loaded := by rw [hLibrary]; exact h.loaded

/-- A clip that is not there yet is loaded exactly if it is sound. -/
theorem load_new_iff (h : Kept files settings s) (hGet : s.library.clips.get? path = none)
    {raw : Sound.Wave.Raw} :
    ((load files path).perform s).1 = .ok raw ↔ IsSound α files settings path raw := by
  have hAnalyze (raw : Sound.Wave.Raw) :
      (s.cache.getOrCompute path (analyze s.library raw)).1 =
        (analyze settings raw : Except Fault (List α)) := by
    rw [Energy.Cache.getOrCompute_fst_of_none (h.unloaded path hGet)]
    exact analyze_congr h.windowMs_eq h.threshold_eq raw
  constructor
  · intro hLoad
    rcases hRun : (load files path).perform s with ⟨outcome, s'⟩
    obtain rfl : outcome = .ok raw := by rw [← hLoad, hRun]
    rw [load, Act.perform_bind, Act.perform_get] at hRun
    simp only [hGet, Act.perform_bind_eq_ok, Act.perform_ofExcept_eq_ok, hAnalyze] at hRun
    obtain ⟨found, _, ⟨hRead, rfl⟩, told, _, ⟨hTold, rfl⟩, _, _, -, _, _, -, points, _,
      ⟨hPoints, rfl⟩, hEnd⟩ := hRun
    have hFound : found = raw := by
      split at hEnd <;> exact (Act.perform_pure_eq_ok.mp hEnd).1
    exact hFound ▸ ⟨hRead, ⟨told, hTold⟩, points, hPoints⟩
  · rintro ⟨hRead, ⟨told, hTold⟩, points, hPoints⟩
    simp only [load, Act.perform_bind, Act.perform_get, hGet, Act.perform_ofExcept, hRead, hTold,
      perform_note, Act.perform_modify, hAnalyze, hPoints]
    split <;> rfl

/-- A clip is loaded exactly if it is sound, whether it is there already or not. -/
theorem load_ok_iff (h : Stocked files settings ps s) {raw : Sound.Wave.Raw} :
    ((load files path).perform s).1 = .ok raw ↔ IsSound α files settings path raw := by
  cases hGet : s.library.clips.get? path with
  | none => exact load_new_iff h.kept hGet
  | some found =>
    have hSound := h.sound path found hGet
    have hLoad : ((load files path).perform s).1 = .ok found := by
      rw [load, Act.perform_bind, Act.perform_get]
      simp only [hGet, Act.perform_pure]
    rw [hLoad]
    constructor
    · rintro ⟨⟩
      exact hSound
    · rintro ⟨hRead, -⟩
      exact hSound.1.symm.trans hRead

theorem load_stocked (h : Stocked files settings ps s) {raw : Sound.Wave.Raw}
    (hLoad : (load files path).perform s = (.ok raw, s')) :
    Stocked files settings (ps ++ [path]) s' := by
  have hSound : IsSound α files settings path raw := (load_ok_iff h).mp (by rw [hLoad])
  have hKept := load_kept h.kept path
  have hLoads := load_loads files path s
  rw [hLoad] at hKept hLoads
  cases hLoads with
  | there hGet =>
    refine ⟨hKept, h.sound, fun p hp => ?_⟩
    rcases List.mem_append.mp hp with hp | hp
    · exact h.loaded p hp
    · rw [List.mem_singleton.mp hp, hGet]
      rfl
  | put hGet hRead hPoints =>
    refine ⟨hKept, fun p found hFound => ?_, fun p hp => ?_⟩
    · rw [Table.get?_put] at hFound
      split at hFound
      · rename_i hSame
        cases hFound
        exact hSame ▸ hSound
      · exact h.sound p found hFound
    · rw [Table.get?_put]
      split
      · rfl
      · rename_i hOther
        rcases List.mem_append.mp hp with hp | hp
        · exact h.loaded p hp
        · exact absurd (List.mem_singleton.mp hp) hOther

/-- Clips that have been loaded in a row were all sound. -/
theorem preload_ok (h : Stocked files settings ps s) {paths : List String}
    (hRun : (preload files paths).perform s = (.ok (), s')) :
    Stocked files settings (ps ++ paths) s' ∧
      ∀ p ∈ paths, ∃ raw, IsSound α files settings p raw := by
  induction paths generalizing ps s with
  | nil =>
    obtain ⟨-, rfl⟩ := Act.perform_pure_eq_ok.mp hRun
    exact ⟨by rwa [List.append_nil], by simp⟩
  | cons path rest ih =>
    rw [preload, Act.perform_bind_eq_ok] at hRun
    obtain ⟨raw, s₁, hLoad, hRest⟩ := hRun
    obtain ⟨hStocked, hSound⟩ := ih (load_stocked h hLoad) hRest
    rw [List.append_assoc, List.singleton_append] at hStocked
    exact ⟨hStocked, List.forall_mem_cons.mpr ⟨⟨raw, (load_ok_iff h).mp (by rw [hLoad])⟩, hSound⟩⟩

theorem preload_of_sound (h : Stocked files settings ps s) {paths : List String}
    (hSound : ∀ p ∈ paths, ∃ raw, IsSound α files settings p raw) :
    ∃ s', (preload files paths).perform s = (.ok (), s') := by
  induction paths generalizing ps s with
  | nil => exact ⟨s, rfl⟩
  | cons path rest ih =>
    obtain ⟨⟨raw, hFirst⟩, hRest⟩ := List.forall_mem_cons.mp hSound
    rcases hLoad : (load files path).perform s with ⟨outcome, s₁⟩
    obtain rfl : outcome = .ok raw := by rw [← (load_ok_iff h).mpr hFirst, hLoad]
    obtain ⟨s', hRun⟩ := ih (load_stocked h hLoad) hRest
    exact ⟨s', Act.perform_bind_eq_ok.mpr ⟨raw, s₁, hLoad, hRun⟩⟩

/-- A studio that takes its clips from a library tells what the files hold. -/
theorem studio_tells {answer : Option String → String → Except Fault (Option String)}
    {resolve : Option String → String → Act (Shelf α) (Option String)} (hApart : Apart resolve)
    (hAnswer : ∀ character state s,
      ((resolve character state).perform s).1 = answer character state)
    (files : FileTree) (settings : Library) :
    (studio files resolve).Tells (stock files settings answer) (Stocked files settings) where
  resolve {ps s} character state h := by
    obtain ⟨hLibrary, hCache⟩ := hApart character state s
    exact ⟨((resolve character state).perform s).2,
      Prod.ext (hAnswer character state s) rfl, h.of_eq hLibrary hCache⟩
  preload {ps s} paths h hSound := by
    have hNoted (n : Note) : Stocked files settings ps { s with notes := s.notes ++ [n] } :=
      h.of_eq rfl rfl
    obtain ⟨s', hRun⟩ := preload_of_sound (hNoted _) hSound
    exact ⟨s', hRun, (preload_ok (hNoted _) hRun).1⟩
  isLoadable {ps s s'} paths h hRun := by
    have hNoted (n : Note) : Stocked files settings ps { s with notes := s.notes ++ [n] } :=
      h.of_eq rfl rfl
    exact (preload_ok (hNoted _) hRun).2
  duration {ps s p} h hp := by
    obtain ⟨raw, hGet⟩ := Option.isSome_iff_exists.mp (h.loaded p hp)
    have hTold : (s.duration p : Except Fault α) = (stock files settings answer).length p := by
      simp only [Shelf.duration, Library.raw, hGet, stock, (h.sound p raw hGet).1]
    exact ⟨s, by rw [← hTold]; rfl, h⟩
  points {ps s p} h hp := by
    obtain ⟨raw, hGet⟩ := Option.isSome_iff_exists.mp (h.loaded p hp)
    obtain ⟨hRead, points, hPoints, hFound⟩ := h.kept.loaded p raw hGet
    have hTold : (.ok (s.points p) : Except Fault (List α)) =
        (stock files settings answer).points p := by
      simp only [Shelf.points, hFound, stock, hRead]
      exact hPoints.symm
    exact ⟨s, by rw [← hTold]; rfl, h⟩

end Library

end Radioplay
