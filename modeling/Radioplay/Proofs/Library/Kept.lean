import Radioplay.Library.Studio
import Radioplay.Proofs.Timeline.Voices

/-! What a library and its cache have kept, over files that stay as they are. Whatever is loaded,
and whether or not a loading fails, a clip kept for a path is the one in the file, and the quiet
points kept for it are the clip's own. So a studio that takes its clips from a library shows the
files. -/

namespace Radioplay

/-- A computation that fails leaves nothing in the cache. -/
theorem Energy.Cache.getOrCompute_error {β : Type} {c c' : Energy.Cache β} {name : String}
    {compute : Except Fault β} {fault : Fault} {runs : ℕ}
    (h : c.getOrCompute name compute = (.error fault, c', runs)) : c' = c := by
  unfold getOrCompute at h
  split at h
  · cases h
  · split at h
    · cases h
    · cases h
      rfl

namespace Library

variable {α : Type} {files : FileTree} {path : String} {s s' : Shelf α}

@[simp] theorem perform_note (n : Note) (s : Shelf α) :
    (note n).perform s = (.ok (), { s with notes := s.notes ++ [n] }) := rfl

variable [Quantity α] {settings : Library}

theorem analyze_congr {library : Library} (hWindow : library.windowMs = settings.windowMs)
    (hThreshold : library.threshold = settings.threshold) (raw : Sound.Wave.Raw) :
    (analyze library raw : Except Fault (List α)) = analyze settings raw := by
  rw [analyze, analyze, hWindow, hThreshold]

variable [Sound.Kit]

/-- How a loading comes out. A clip that is there changes nothing; a failure changes nothing but the
notes; else the clip read is put in, with a cache that has answered for its quiet points. -/
inductive Loads (files : FileTree) (path : String) (s : Shelf α) :
    Except Fault Sound.Wave.Raw → Shelf α → Prop
  | there {raw : Sound.Wave.Raw} (hGet : s.library.clips.get? path = some raw) :
    Loads files path s (.ok raw) s
  | failed {fault : Fault} {s' : Shelf α} (hLibrary : s'.library = s.library)
    (hCache : s'.cache = s.cache) : Loads files path s (.error fault) s'
  | put {raw : Sound.Wave.Raw} {points : List α} {cache : Energy.Cache (List α)} {runs : ℕ}
    {notes : List Note} (hGet : s.library.clips.get? path = none)
    (hRead : read files path = .ok raw)
    (hPoints : s.cache.getOrCompute path (analyze s.library raw) = (.ok points, cache, runs)) :
    Loads files path s (.ok raw)
      ⟨{ s.library with clips := s.library.clips.put path raw }, cache, notes⟩

theorem load_loads (files : FileTree) (path : String) (s : Shelf α) :
    Loads files path s ((load files path).perform s).1 ((load files path).perform s).2 := by
  rw [load, Act.perform_bind, Act.perform_get]
  cases hGet : s.library.clips.get? path with
  | some raw =>
    simp only [hGet, Act.perform_pure]
    exact .there hGet
  | none =>
    simp only [hGet, Act.perform_bind, Act.perform_ofExcept, perform_note, Act.perform_modify]
    cases hRead : read files path with
    | error fault => exact .failed rfl rfl
    | ok raw =>
      simp only
      cases hTold : readNote path raw with
      | error fault => exact .failed rfl rfl
      | ok told =>
        simp only
        rcases hRun : s.cache.getOrCompute path (analyze s.library raw) with
          ⟨fault | points, cache, runs⟩
        · exact .failed rfl (Energy.Cache.getOrCompute_error hRun)
        · simp only
          split
          · exact .put hGet hRead hRun
          · exact .put hGet hRead hRun

/-- Every clip kept was read from its file and is kept with its quiet points; there are no quiet
points of other paths. -/
structure Kept (files : FileTree) (settings : Library) (s : Shelf α) : Prop where
  windowMs_eq : s.library.windowMs = settings.windowMs
  threshold_eq : s.library.threshold = settings.threshold
  loaded : ∀ path raw, s.library.clips.get? path = some raw →
    read files path = .ok raw ∧
      ∃ points, analyze settings raw = .ok points ∧ s.cache.get? path = some points
  unloaded : ∀ path, s.library.clips.get? path = none → s.cache.get? path = none

theorem kept_empty (files : FileTree) (timing : Timing) (notes : List Note) :
    Kept files (.ofTiming timing) (⟨.ofTiming timing, .empty, notes⟩ : Shelf α) where
  windowMs_eq := rfl
  threshold_eq := rfl
  loaded _ _ h := by cases h
  unloaded _ _ := rfl

theorem Kept.of_eq (h : Kept files settings s) (hLibrary : s'.library = s.library)
    (hCache : s'.cache = s.cache) : Kept files settings s' where
  windowMs_eq := by rw [hLibrary]; exact h.windowMs_eq
  threshold_eq := by rw [hLibrary]; exact h.threshold_eq
  loaded := by rw [hLibrary, hCache]; exact h.loaded
  unloaded := by rw [hLibrary, hCache]; exact h.unloaded

/-- A clip that has been read and analyzed is put in with its quiet points. -/
theorem Kept.put (h : Kept files settings s) {raw : Sound.Wave.Raw}
    {points : List α} (hRead : read files path = .ok raw)
    (hPoints : analyze settings raw = .ok points) (notes : List Note) :
    Kept files settings
      { library := { s.library with clips := s.library.clips.put path raw }
        cache := ⟨s.cache.profiles.put path points⟩
        notes := notes } where
  windowMs_eq := h.windowMs_eq
  threshold_eq := h.threshold_eq
  loaded := by
    intro other raw' hGet
    simp only [Energy.Cache.get?, Table.get?_put] at hGet ⊢
    split at hGet
    · rename_i hSame
      cases hGet
      rw [if_pos hSame, hSame]
      exact ⟨hRead, points, hPoints, rfl⟩
    · rename_i hOther
      rw [if_neg hOther]
      exact h.loaded other raw' hGet
  unloaded := by
    intro other hGet
    simp only [Energy.Cache.get?, Table.get?_put] at hGet ⊢
    split at hGet
    · cases hGet
    · rename_i hOther
      rw [if_neg hOther]
      exact h.unloaded other hGet

theorem load_kept (h : Kept files settings s) (path : String) :
    Kept files settings ((load files path).perform s).2 := by
  have hLoads := load_loads files path s
  generalize ((load files path).perform s).1 = outcome at hLoads
  generalize ((load files path).perform s).2 = s' at hLoads ⊢
  cases hLoads with
  | there => exact h
  | failed hLibrary hCache => exact h.of_eq hLibrary hCache
  | put hGet hRead hPoints =>
    rename_i raw points cache runs notes
    rw [analyze_congr h.windowMs_eq h.threshold_eq] at hPoints
    unfold Energy.Cache.getOrCompute at hPoints
    rw [h.unloaded path hGet] at hPoints
    cases hAnalyze : (analyze settings raw : Except Fault (List α)) with
    | error fault => simp [hAnalyze] at hPoints
    | ok found =>
      simp only [hAnalyze, Prod.mk.injEq, Except.ok.injEq] at hPoints
      obtain ⟨-, rfl, -⟩ := hPoints
      exact h.put hRead hAnalyze notes

theorem preload_kept (h : Kept files settings s) (paths : List String) :
    Kept files settings ((preload files paths).perform s).2 := by
  induction paths generalizing s with
  | nil => exact h
  | cons path rest ih =>
    have hLoad := load_kept h path
    rw [preload, Act.perform_bind]
    rcases hRun : (load files path).perform s with ⟨_ | raw, s'⟩
    · rw [hRun] at hLoad
      exact hLoad
    · rw [hRun] at hLoad
      exact ih hLoad

/-- What a library under the given settings tells of the clips in the files. -/
def contentsOf (files : FileTree) (settings : Library) : Contents α := fun path =>
  match read files path with
  | .error _ => none
  | .ok raw =>
    match (Sound.Kit.seconds raw : Except Fault α),
      (analyze settings raw : Except Fault (List α)) with
    | .ok x, .ok points => some (x, points)
    | _, _ => none

theorem contentsOf_eq_some {x : α} {points : List α}
    (h : contentsOf files settings path = some (x, points)) :
    ∃ raw, read files path = .ok raw ∧ Sound.Kit.seconds raw = .ok x ∧
      analyze settings raw = .ok points := by
  unfold contentsOf at h
  split at h
  · cases h
  · rename_i raw hRead
    split at h
    · rename_i hSeconds hPoints
      cases h
      exact ⟨raw, hRead, hSeconds, hPoints⟩
    · cases h

/-- Answers for lines are given apart from a library: they take nothing out of it or its cache and
put nothing in. -/
def Apart (resolve : Option String → String → Act (Shelf α) (Option String)) : Prop :=
  ∀ character state s, ((resolve character state).perform s).2.library = s.library ∧
    ((resolve character state).perform s).2.cache = s.cache

/-- A studio that takes its clips from a library shows what is in the files. -/
theorem studio_shows {resolve : Option String → String → Act (Shelf α) (Option String)}
    (hApart : Apart resolve) (files : FileTree) (settings : Library) :
    (studio files resolve).Shows (contentsOf files settings) (Kept files settings) where
  resolve character state s h := by
    obtain ⟨hLibrary, hCache⟩ := hApart character state s
    exact h.of_eq hLibrary hCache
  preload paths s h := by
    have hNoted (n : Note) : Kept files settings { s with notes := s.notes ++ [n] } :=
      h.of_eq rfl rfl
    exact preload_kept (hNoted _) paths
  duration path s h := h
  points path s h := h
  told path s x s₁ points s₂ h hDuration hPoints := by
    obtain ⟨hTold, rfl⟩ := Act.perform_ofExcept_eq_ok.mp
      (show Act.perform (.ofExcept (s.duration path)) s = (.ok x, s₁) from hDuration)
    obtain ⟨rfl, rfl⟩ := Act.perform_pure_eq_ok.mp
      (show Act.perform (pure (s.points path)) s = (.ok points, s₂) from hPoints)
    obtain ⟨raw, hRaw, hSeconds⟩ := bind_eq_ok.mp hTold
    rw [Library.raw] at hRaw
    split at hRaw
    · rename_i hGet
      cases hRaw
      obtain ⟨hRead, points, hAnalyze, hKept⟩ := h.loaded path raw hGet
      simp only [contentsOf, hRead, hSeconds, hAnalyze, Shelf.points, hKept, Option.getD_some]
    · cases hRaw

end Library

end Radioplay
