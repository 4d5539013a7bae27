import Mathlib.Data.Rat.Defs
import Radioplay.Proofs.Library.Steps
import Radioplay.Sound.Plain

/-! First success wins. Whatever happens to libraries and files, the first loading of a path into a
library that succeeds settles what the library answers for it, and the first analysis through a
cache that succeeds settles the quiet points. The invariant is `Records`: libraries and caches hold
what the history of loadings has in it first. Answers are read off a shelf and leave it alone, so
asking is not a step. -/

namespace Radioplay.Shelves

open Sound

variable {α : Type}

/-! ### Where it starts -/

/-- Libraries and caches that nothing has been loaded into, with a cache for each library. -/
structure IsFresh (s : Shelves α) : Prop where
  libraries : ∀ e ∈ s.libraries, e.1.clips = [] ∧ e.2 < s.caches.length
  caches : ∀ c ∈ s.caches, c.profiles = []

theorem IsFresh.has {s : Shelves α} (hFresh : s.IsFresh) {i : ℕ} (hi : i < s.libraries.length) :
    s.Has i := by
  refine ⟨hi, ?_⟩
  rw [cacheOf, List.getElem?_eq_getElem hi]
  exact (hFresh.libraries _ (List.getElem_mem hi)).2

/-! ### The history of loadings -/

namespace Loading

/-- Has a loading brought a path into a library? -/
def isInto (i : ℕ) (path : String) (l : Loading α) : Bool :=
  l.library == i && l.path == path && l.outcome.isOk

/-- Has a loading found the quiet points of a path for a cache of the given shelves? -/
def isThrough (s : Shelves α) (j : ℕ) (path : String) (l : Loading α) : Bool :=
  s.cacheOf l.library == j && l.path == path && l.found.isSome

theorem isInto_iff {i : ℕ} {path : String} {l : Loading α} :
    l.isInto i path ↔ l.library = i ∧ l.path = path ∧ l.outcome.isOk := by
  simp only [isInto, Bool.and_eq_true, beq_iff_eq, and_assoc]

theorem isThrough_iff {s : Shelves α} {j : ℕ} {path : String} {l : Loading α} :
    l.isThrough s j path ↔ s.cacheOf l.library = j ∧ l.path = path ∧ l.found.isSome := by
  simp only [isThrough, Bool.and_eq_true, beq_iff_eq, and_assoc]

end Loading

section

variable {β γ : Type} {xs : List β} {x : β} {p : β → Bool} {R : β → γ → Prop}

theorem exists_of_rel_some {o : Option γ} (h : Option.Rel R (some x) o) :
    ∃ y, o = some y ∧ R x y := by
  cases h with
  | some hRel => exact ⟨_, rfl, hRel⟩

theorem eq_none_of_rel_none {o : Option γ} (h : Option.Rel R none o) : o = none := by
  cases h
  rfl

theorem rel_find?_concat_old {o : Option γ} (h : Option.Rel R (xs.find? p) o)
    (hOld : p x → o.isSome) : Option.Rel R ((xs ++ [x]).find? p) o := by
  rw [List.find?_append]
  cases hFirst : xs.find? p with
  | some first => rwa [hFirst] at h
  | none =>
    rw [hFirst] at h
    obtain rfl := eq_none_of_rel_none h
    have hOther : ¬p x := fun hx => by cases hOld hx
    rw [List.find?_cons_of_neg hOther]
    exact .none

theorem rel_find?_concat_new {y : γ} (h : Option.Rel R (xs.find? p) none) (hNew : p x)
    (hRel : R x y) : Option.Rel R ((xs ++ [x]).find? p) (some y) := by
  rw [List.find?_append]
  cases hFirst : xs.find? p with
  | some first =>
    rw [hFirst] at h
    cases h
  | none =>
    rw [List.find?_cons_of_pos hNew]
    exact .some hRel

theorem find?_append_of_some {more : List β} (h : xs.find? p = some x) :
    (xs ++ more).find? p = some x := by
  rw [List.find?_append, h, Option.some_or]

end

section

variable [Kit] [Quantity α]

/-- The loadings of a preloading, of which the last may have failed. -/
def preloadings (s : Shelves α) (i : ℕ) : List String → List (Loading α)
  | [] => []
  | path :: rest =>
    s.loading i path ::
      match s.step (.load i path) with
      | (.ok (), s') => s'.preloadings i rest
      | (.error _, _) => []

def loadings (s : Shelves α) : Step → List (Loading α)
  | .load i path => [s.loading i path]
  | .preload i paths => s.preloadings i paths
  | .change _ => []

/-- All loadings of steps in a row. -/
def history (s : Shelves α) : List Step → List (Loading α)
  | [] => []
  | t :: rest => s.loadings t ++ (s.step t).2.history rest

theorem after_cons (s : Shelves α) (t : Step) (steps : List Step) :
    s.after (t :: steps) = (s.step t).2.after steps := rfl

theorem after_append (s : Shelves α) (steps more : List Step) :
    s.after (steps ++ more) = (s.after steps).after more := List.foldl_append

/-! ### What is first stays first -/

/-! ### The invariant -/

/-- A clip is what a loading has read. -/
def Loading.Brought (l : Loading α) (raw : Wave.Raw) : Prop :=
  l.outcome = .ok raw ∧ Library.read l.files l.path = .ok raw

/-- Quiet points are what a loading has found, by the settings that its library had at first. -/
def Loading.Found (s : Shelves α) (l : Loading α) (points : List α) : Prop :=
  ∃ raw, Library.read l.files l.path = .ok raw ∧
    Library.analyze (s.libraryAt l.library) raw = .ok points

/-- After the loadings of a history, libraries and caches that were as in `s₀` hold what came
first, and no clip without its quiet points. -/
structure Records (s₀ : Shelves α) (h : List (Loading α)) (s : Shelves α) : Prop where
  has_iff : ∀ i, s.Has i ↔ s₀.Has i
  cacheOf_eq : ∀ i, s.cacheOf i = s₀.cacheOf i
  settings_eq : ∀ i, (s.libraryAt i).windowMs = (s₀.libraryAt i).windowMs ∧
    (s.libraryAt i).threshold = (s₀.libraryAt i).threshold
  clips : ∀ i path, s₀.Has i →
    Option.Rel Loading.Brought (h.find? fun l => l.isInto i path) ((s.libraryAt i).clips.get? path)
  profiles : ∀ i path, s₀.Has i →
    Option.Rel (Loading.Found s₀)
      (h.find? fun l => l.isThrough s₀ (s₀.cacheOf i) path)
      ((s.cacheAt (s₀.cacheOf i)).get? path)
  served : ∀ i path, s₀.Has i → ((s.libraryAt i).clips.get? path).isSome →
    ((s.cacheAt (s₀.cacheOf i)).get? path).isSome

variable {s₀ s : Shelves α} {h : List (Loading α)} {l : Loading α} {i : ℕ} {path : String}

/-- A loading that has brought nothing new. -/
theorem Records.old (hRecords : Records s₀ h s) (hFound : l.found = none)
    (hInto : ∀ i path, l.isInto i path → ((s.libraryAt i).clips.get? path).isSome) :
    Records s₀ (h ++ [l]) s :=
  { hRecords with
    clips := fun i path hi => rel_find?_concat_old (hRecords.clips i path hi) (hInto i path)
    profiles := fun i path hi => by
      apply rel_find?_concat_old (hRecords.profiles i path hi)
      intro hThrough
      rw [Loading.isThrough_iff, hFound] at hThrough
      cases hThrough.2.2 }

/-- A loading that has put a clip in, with a cache that has kept what it had and has quiet points
for the clip. -/
theorem Records.put (hRecords : Records s₀ h s) (hi : s₀.Has i) {raw : Wave.Raw}
    {found : Option (List α)} {cache : Energy.Cache (List α)} {notes : List Note}
    (hGet : (s.libraryAt i).clips.get? path = none)
    (hRead : Library.read s.files path = .ok raw)
    (hGrown : ∀ q, q = path ∨ ((s.cacheAt (s.cacheOf i)).get? q).isSome → (cache.get? q).isSome)
    (hProfiles : ∀ q, Option.Rel (Loading.Found s₀)
      ((h ++ [Loading.mk i path s.files (.ok raw) found]).find? fun l =>
        l.isThrough s₀ (s.cacheOf i) q)
      (cache.get? q)) :
    Records s₀ (h ++ [.mk i path s.files (.ok raw) found])
      (s.replace i ⟨{ s.libraryAt i with clips := (s.libraryAt i).clips.put path raw }, cache,
        notes⟩) := by
  have hHas := (hRecords.has_iff i).mpr hi
  constructor
  case has_iff => exact fun k => has_replace_iff.trans (hRecords.has_iff k)
  case cacheOf_eq => exact fun k => (cacheOf_replace s i k _).trans (hRecords.cacheOf_eq k)
  case settings_eq =>
    intro k
    rw [libraryAt_replace hHas]
    split
    · rename_i hSame
      exact hSame ▸ hRecords.settings_eq k
    · exact hRecords.settings_eq k
  case clips =>
    intro k q hk
    have hOld := hRecords.clips k q hk
    rw [libraryAt_replace hHas]
    split
    · rename_i hSame
      subst hSame
      rw [Table.get?_put]
      split
      · rename_i hSame
        subst hSame
        rw [hGet] at hOld
        exact rel_find?_concat_new hOld (Loading.isInto_iff.mpr ⟨rfl, rfl, rfl⟩) ⟨rfl, hRead⟩
      · rename_i hOther
        exact rel_find?_concat_old hOld fun hInto =>
          absurd (Loading.isInto_iff.mp hInto).2.1.symm hOther
    · rename_i hOther
      exact rel_find?_concat_old hOld fun hInto =>
        absurd (Loading.isInto_iff.mp hInto).1.symm hOther
  case profiles =>
    intro k q hk
    rw [cacheAt_replace hHas, hRecords.cacheOf_eq]
    split
    · rename_i hSame
      rw [hSame, ← hRecords.cacheOf_eq i]
      exact hProfiles q
    · rename_i hOther
      exact rel_find?_concat_old (hRecords.profiles k q hk) fun hThrough =>
        absurd (Loading.isThrough_iff.mp hThrough).1.symm hOther
  case served =>
    -- Another library may be served by the same cache, so the cases are by caches first.
    intro k q hk hHeld
    have hOld := hRecords.served k q hk
    rw [libraryAt_replace hHas] at hHeld
    rw [cacheAt_replace hHas, hRecords.cacheOf_eq]
    rw [hRecords.cacheOf_eq] at hGrown
    by_cases hCache : s₀.cacheOf k = s₀.cacheOf i
    · rw [if_pos hCache]
      apply hGrown
      rw [← hCache]
      split at hHeld
      · rename_i hSame
        subst hSame
        rw [Table.get?_put] at hHeld
        split at hHeld
        · rename_i hPath
          exact .inl hPath
        · exact .inr (hOld hHeld)
      · exact .inr (hOld hHeld)
    · rw [if_neg hCache]
      split at hHeld
      · rename_i hSame
        exact absurd (congrArg s₀.cacheOf hSame) hCache
      · exact hOld hHeld

/-- The step lemma: a loading, however it comes out, keeps the records. -/
theorem Records.load (hRecords : Records s₀ h s) (hi : s₀.Has i) (path : String) :
    Records s₀ (h ++ [s.loading i path]) (s.step (.load i path)).2 := by
  have hMoves := step_load_moves s i path
  have hProfiles := fun q => hRecords.profiles i q hi
  rw [← hRecords.cacheOf_eq] at hProfiles
  generalize s.loading i path = l at hMoves ⊢
  generalize (s.step (.load i path)).2 = s' at hMoves ⊢
  cases hMoves with
  | there hGet =>
    -- The library has the clip since an earlier loading, which stays the first.
    apply hRecords.old rfl
    intro k q hInto
    obtain ⟨rfl, rfl, -⟩ := Loading.isInto_iff.mp hInto
    exact Option.isSome_iff_exists.mpr ⟨_, hGet⟩
  | failed =>
    apply hRecords.old rfl
    intro k q hInto
    cases (Loading.isInto_iff.mp hInto).2.2
  | shared hGet hRead hKnown =>
    apply hRecords.put hi hGet hRead
    · rintro q (rfl | hOld)
      · exact Option.isSome_iff_exists.mpr ⟨_, hKnown⟩
      · exact hOld
    · intro q
      apply rel_find?_concat_old (hProfiles q)
      intro hThrough
      cases (Loading.isThrough_iff.mp hThrough).2.2
  | analyzed hGet hRead hNew hPoints =>
    apply hRecords.put hi hGet hRead
    · intro q hq
      rw [Energy.Cache.get?, Table.get?_put]
      split
      · rfl
      · rename_i hOther
        exact hq.resolve_left hOther
    · intro q
      have hOld := hProfiles q
      rw [Energy.Cache.get?, Table.get?_put]
      split
      · rename_i hSame
        subst hSame
        -- The cache had nothing for the path, so no loading before has found anything.
        rw [hNew] at hOld
        refine rel_find?_concat_new hOld
          (Loading.isThrough_iff.mpr ⟨(hRecords.cacheOf_eq i).symm, rfl, rfl⟩) ⟨_, hRead, ?_⟩
        rw [← hPoints]
        obtain ⟨hWindow, hThreshold⟩ := hRecords.settings_eq i
        exact (Library.analyze_congr hWindow hThreshold _).symm
      · rename_i hOther
        exact rel_find?_concat_old hOld fun hThrough =>
          absurd (Loading.isThrough_iff.mp hThrough).2.1.symm hOther

theorem Records.preload (hRecords : Records s₀ h s) (hi : s₀.Has i) (paths : List String) :
    Records s₀ (h ++ s.preloadings i paths) (s.step (.preload i paths)).2 := by
  induction paths generalizing s h with
  | nil =>
    rw [preloadings, List.append_nil, step_preload_nil]
    exact hRecords
  | cons path rest ih =>
    have hLoad := hRecords.load hi path
    rw [preloadings, step_preload_cons ((hRecords.has_iff i).mpr hi)]
    rcases hStep : s.step (.load i path) with ⟨fault | _, s'⟩
    · rw [hStep] at hLoad
      exact hLoad
    · rw [hStep] at hLoad
      have hRest := ih hLoad
      rwa [List.append_assoc, List.singleton_append] at hRest

/-- A step concerns one of the first `n` libraries, or the files. -/
def Step.IsAmong (n : ℕ) : Step → Prop
  | .load i _ => i < n
  | .preload i _ => i < n
  | .change _ => True

theorem IsFresh.records (hFresh : s.IsFresh) : Records s [] s where
  has_iff _ := Iff.rfl
  cacheOf_eq _ := rfl
  settings_eq _ := ⟨rfl, rfl⟩
  clips i path hi := by
    rw [libraryAt, List.getElem?_eq_getElem hi.1, Option.getD_some,
      (hFresh.libraries _ (List.getElem_mem hi.1)).1]
    exact .none
  profiles i path hi := by
    rw [cacheAt, List.getElem?_eq_getElem hi.2, Option.getD_some, Energy.Cache.get?,
      hFresh.caches _ (List.getElem_mem hi.2)]
    exact .none
  served i path hi hHeld := by
    rw [libraryAt, List.getElem?_eq_getElem hi.1, Option.getD_some,
      (hFresh.libraries _ (List.getElem_mem hi.1)).1] at hHeld
    cases hHeld

theorem Records.step (hRecords : Records s₀ h s) (hFresh : s₀.IsFresh) {t : Step}
    (ht : t.IsAmong s₀.libraries.length) : Records s₀ (h ++ s.loadings t) (s.step t).2 := by
  cases t with
  | load i path => exact hRecords.load (hFresh.has ht) path
  | preload i paths => exact hRecords.preload (hFresh.has ht) paths
  | change files =>
    rw [loadings, List.append_nil]
    exact { hRecords with }

/-- The run lemma. -/
theorem Records.after (hRecords : Records s₀ h s) (hFresh : s₀.IsFresh) {steps : List Step}
    (hSteps : ∀ t ∈ steps, t.IsAmong s₀.libraries.length) :
    Records s₀ (h ++ s.history steps) (s.after steps) := by
  induction steps generalizing s h with
  | nil =>
    rw [history, List.append_nil]
    exact hRecords
  | cons t rest ih =>
    obtain ⟨ht, hRest⟩ := List.forall_mem_cons.mp hSteps
    rw [history, ← List.append_assoc, after_cons]
    exact ih (hRecords.step hFresh ht) hRest

theorem IsFresh.records_after (hFresh : s.IsFresh) {steps : List Step}
    (hSteps : ∀ t ∈ steps, t.IsAmong s.libraries.length) :
    Records s (s.history steps) (s.after steps) :=
  hFresh.records.after hFresh hSteps

/-! ### Preloading -/

/-- How far a preloading comes. The paths before have been loaded, each after those in front of it,
and nothing else has happened; then there are no more paths, or the next one fails. -/
structure Reaches (s : Shelves α) (i : ℕ) (paths before rest : List String) : Prop where
  paths_eq : paths = before ++ rest
  loaded : ∀ front path more, before = front ++ path :: more →
    ((s.after (front.map (.load i))).step (.load i path)).1 = .ok ()
  shelves_eq : (s.step (.preload i paths)).2 = s.after (before.map (.load i))
  holds_iff : ∀ k path, (s.step (.preload i paths)).2.Holds k path ↔
    s.Holds k path ∨ k = i ∧ path ∈ before
  outcome : rest = [] ∧ (s.step (.preload i paths)).1 = .ok () ∨
    ∃ path more fault, rest = path :: more ∧
      ((s.after (before.map (.load i))).step (.load i path)).1 = .error fault ∧
      (s.step (.preload i paths)).1 = .error fault

theorem holds_step_load (hi : s.Has i) (hLoad : (s.step (.load i path)).1 = .ok ()) (k : ℕ)
    (q : String) : (s.step (.load i path)).2.Holds k q ↔ s.Holds k q ∨ k = i ∧ q = path := by
  rw [step_load, loading] at *
  rcases hRun : (Library.load s.files path).perform (s.shelf i) with ⟨fault | raw, shelf⟩
  · rw [hRun] at hLoad
    cases hLoad
  · have hHolds := Library.load_holds hRun q
    rw [Holds, Holds, libraryAt_replace hi]
    by_cases hk : k = i
    · subst hk
      rw [if_pos rfl, hHolds, and_iff_right rfl, shelf_eq]
    · rw [if_neg hk, or_iff_left (fun h => hk h.1)]

theorem has_step_load (path : String) (hi : s.Has i) : (s.step (.load i path)).2.Has i :=
  has_replace_iff.mpr hi

theorem exists_reaches (hi : s.Has i) (paths : List String) :
    ∃ before rest, s.Reaches i paths before rest := by
  induction paths generalizing s with
  | nil =>
    refine ⟨[], [], rfl, ?_, ?_, ?_, ?_⟩
    · intro front path more hBefore
      cases List.append_ne_nil_of_right_ne_nil front (List.cons_ne_nil path more) hBefore.symm
    · rw [step_preload_nil]
      rfl
    · simp [step_preload_nil]
    · rw [step_preload_nil]
      exact .inl ⟨rfl, rfl⟩
  | cons path rest ih =>
    rcases hStep : s.step (.load i path) with ⟨fault | _, s'⟩
    · have hPreload : s.step (.preload i (path :: rest)) = (.error fault, s) := by
        have hFault : (s.step (.load i path)).1 = .error fault := by rw [hStep]
        have hSame := step_load_error hFault
        rw [hStep] at hSame
        rw [step_preload_cons hi, hStep, ← hSame]
      refine ⟨[], path :: rest, rfl, ?_, ?_, ?_, ?_⟩
      · intro front path more hBefore
        cases List.append_ne_nil_of_right_ne_nil front (List.cons_ne_nil path more) hBefore.symm
      · rw [hPreload]
        rfl
      · simp [hPreload]
      · refine .inr ⟨path, rest, fault, rfl, ?_, ?_⟩
        · exact congrArg Prod.fst hStep
        · rw [hPreload]
    · have hPreload : s.step (.preload i (path :: rest)) = s'.step (.preload i rest) := by
        rw [step_preload_cons hi, hStep]
      have hHas : s'.Has i := by
        have hHas := has_step_load path hi
        rwa [hStep] at hHas
      have hOk : (s.step (.load i path)).1 = .ok () := by rw [hStep]
      have hHolds := holds_step_load hi hOk
      rw [hStep] at hHolds
      have hAfter (steps : List Step) : s.after (.load i path :: steps) = s'.after steps := by
        rw [after_cons, hStep]
      obtain ⟨before, more, hReaches⟩ := ih hHas
      refine ⟨path :: before, more, ?_, ?_, ?_, ?_, ?_⟩
      · rw [hReaches.paths_eq, List.cons_append]
      · rintro (_ | ⟨first, front⟩) q after hBefore
        · cases hBefore
          exact congrArg Prod.fst hStep
        · cases hBefore
          rw [List.map_cons, hAfter]
          exact hReaches.loaded front q after rfl
      · rw [hPreload, List.map_cons, hAfter, hReaches.shelves_eq]
      · intro k q
        rw [hPreload, hReaches.holds_iff, hHolds, List.mem_cons]
        tauto
      · rw [hPreload, List.map_cons, hAfter]
        exact hReaches.outcome

/-! ### First success wins -/

/-- What holds of libraries and caches after steps, and for good. -/
structure KeepsFirst (s : Shelves α) (steps : List Step) : Prop where
  /-- The first loading of a path into a library that succeeds reads the clip that the library
  answers from ever after. -/
  first_clip : ∀ i path l, i < s.libraries.length →
    (s.history steps).find? (fun l => l.isInto i path) = some l →
    ∃ raw, l.outcome = .ok raw ∧ Library.read l.files path = .ok raw ∧
      ∀ more : List Step, (∀ t ∈ more, t.IsAmong s.libraries.length) →
        ((s.after (steps ++ more)).libraryAt i).raw path = .ok raw ∧
        ((s.after (steps ++ more)).shelf i).duration path = (Kit.seconds raw : Except Fault α) ∧
        ((s.after (steps ++ more)).libraryAt i).clip path >>= Clip.loudness =
          (raw.clip >>= Clip.loudness : Except Fault (List α))
  no_clip : ∀ i path, i < s.libraries.length →
    (s.history steps).find? (fun l => l.isInto i path) = none →
    ((s.after steps).libraryAt i).raw path = .error (.clipNotLoaded path)
  /-- The first analysis of a path through a cache that succeeds finds the quiet points that every
  library served by the cache answers with ever after. -/
  first_points : ∀ i path l, i < s.libraries.length →
    (s.history steps).find? (fun l => l.isThrough s (s.cacheOf i) path) = some l →
    ∃ raw points, Library.read l.files path = .ok raw ∧
      Library.analyze (s.libraryAt l.library) raw = .ok points ∧
      ∀ more : List Step, (∀ t ∈ more, t.IsAmong s.libraries.length) →
        ((s.after (steps ++ more)).shelf i).points path = points
  no_points : ∀ i path, i < s.libraries.length →
    (s.history steps).find? (fun l => l.isThrough s (s.cacheOf i) path) = none →
    ((s.after steps).shelf i).points path = []
  /-- Nothing that comes later tells that a loading has failed. -/
  failed_load : ∀ i path fault, ((s.after steps).step (.load i path)).1 = .error fault →
    ∀ more, s.after (steps ++ .load i path :: more) = s.after (steps ++ more)
  preload : ∀ i paths, i < s.libraries.length →
    ∃ before rest, (s.after steps).Reaches i paths before rest
  /-- There is no clip without its quiet points. -/
  served : ∀ i path, i < s.libraries.length → (s.after steps).Holds i path →
    ((s.after steps).cacheAt (s.cacheOf i)).contains path

theorem Records.raw_eq (hRecords : Records s₀ h s) (hi : s₀.Has i)
    (hFirst : h.find? (fun l => l.isInto i path) = some l) :
    ∃ raw, l.outcome = .ok raw ∧ Library.read l.files path = .ok raw ∧
      (s.libraryAt i).clips.get? path = some raw := by
  obtain ⟨-, rfl, -⟩ := Loading.isInto_iff.mp (List.find?_some hFirst)
  obtain ⟨raw, hGet, hOutcome, hRead⟩ := exists_of_rel_some (hFirst ▸ hRecords.clips i l.path hi)
  exact ⟨raw, hOutcome, hRead, hGet⟩

theorem Records.points_eq (hRecords : Records s₀ h s) (hi : s₀.Has i)
    (hFirst : h.find? (fun l => l.isThrough s₀ (s₀.cacheOf i) path) = some l) :
    ∃ raw points, Library.read l.files path = .ok raw ∧
      Library.analyze (s₀.libraryAt l.library) raw = .ok points ∧
      (s.shelf i).points path = points := by
  obtain ⟨-, rfl, -⟩ := Loading.isThrough_iff.mp (List.find?_some hFirst)
  obtain ⟨points, hGet, raw, hRead, hPoints⟩ :=
    exists_of_rel_some (hFirst ▸ hRecords.profiles i l.path hi)
  refine ⟨raw, points, hRead, hPoints, ?_⟩
  rw [shelf_eq, Shelf.points, hRecords.cacheOf_eq, hGet, Option.getD_some]

theorem keepsFirst (hFresh : s.IsFresh) {steps : List Step}
    (hSteps : ∀ t ∈ steps, t.IsAmong s.libraries.length) : s.KeepsFirst steps := by
  have hRecords := hFresh.records_after hSteps
  have hLater {more : List Step} (hMore : ∀ t ∈ more, t.IsAmong s.libraries.length) :
      Records s (s.history steps ++ (s.after steps).history more) (s.after (steps ++ more)) := by
    rw [after_append]
    exact hRecords.after hFresh hMore
  constructor
  case first_clip =>
    intro i path l hi hFirst
    obtain ⟨raw, hOutcome, hRead, -⟩ := hRecords.raw_eq (hFresh.has hi) hFirst
    refine ⟨raw, hOutcome, hRead, fun more hMore => ?_⟩
    obtain ⟨raw', hOutcome', -, hGet⟩ :=
      (hLater hMore).raw_eq (hFresh.has hi) (find?_append_of_some hFirst)
    obtain rfl : raw' = raw := by
      rw [hOutcome] at hOutcome'
      cases hOutcome'
      rfl
    have hRaw : ((s.after (steps ++ more)).libraryAt i).raw path = .ok raw' := by
      rw [Library.raw, hGet]
    refine ⟨hRaw, ?_, ?_⟩
    · rw [shelf_eq, Shelf.duration, hRaw]
      rfl
    · rw [Library.clip, hRaw]
      rfl
  case no_clip =>
    intro i path hi hNone
    have hClips := hRecords.clips i path (hFresh.has hi)
    rw [hNone] at hClips
    rw [Library.raw, eq_none_of_rel_none hClips]
  case first_points =>
    intro i path l hi hFirst
    obtain ⟨raw, points, hRead, hPoints, -⟩ := hRecords.points_eq (hFresh.has hi) hFirst
    refine ⟨raw, points, hRead, hPoints, fun more hMore => ?_⟩
    obtain ⟨raw', points', hRead', hPoints', hEq⟩ :=
      (hLater hMore).points_eq (hFresh.has hi) (find?_append_of_some hFirst)
    obtain rfl : raw' = raw := by
      rw [hRead] at hRead'
      cases hRead'
      rfl
    rw [hPoints] at hPoints'
    cases hPoints'
    exact hEq
  case no_points =>
    intro i path hi hNone
    have hProfiles := hRecords.profiles i path (hFresh.has hi)
    rw [hNone] at hProfiles
    rw [shelf_eq, Shelf.points, hRecords.cacheOf_eq, eq_none_of_rel_none hProfiles,
      Option.getD_none]
  case failed_load =>
    intro i path fault hFault more
    rw [after_append, after_append, after_cons, step_load_error hFault]
  case preload =>
    intro i paths hi
    exact exists_reaches ((hRecords.has_iff i).mpr (hFresh.has hi)) paths
  case served =>
    intro i path hi hHeld
    exact hRecords.served i path (hFresh.has hi) hHeld

end

/-- A sound file with ten frames in a second: half a second of silence, then as much of full
loudness. -/
def bell : List UInt8 :=
  [0x52, 0x49, 0x46, 0x46, 46, 0, 0, 0, 0x57, 0x41, 0x56, 0x45,
    0x66, 0x6D, 0x74, 0x20, 16, 0, 0, 0, 1, 0, 1, 0, 10, 0, 0, 0, 10, 0, 0, 0, 1, 0, 8, 0,
    0x64, 0x61, 0x74, 0x61, 10, 0, 0, 0] ++
  List.replicate 5 128 ++ List.replicate 5 0

def bellRaw : Wave.Raw := ⟨1, 10, 1, List.replicate 5 0 ++ List.replicate 5 128⟩

def bellFiles : FileTree := ⟨[(["bell.wav"], .file bell)]⟩

theorem read_bellFiles : Library.read bellFiles "bell.wav" = .ok bellRaw := by
  have hPlace : bellFiles.locate "bell.wav" = .ok ["bell.wav"] := by rfl
  rw [Library.read, FileTree.read, hPlace]
  rfl

/-- Two libraries with one cache, of which the second takes every clip for quiet. -/
def twins : Shelves ℚ where
  files := bellFiles
  libraries := [({ threshold := .int 1 }, 0), ({ threshold := .int 2 }, 0)]
  caches := [.empty]

theorem loading_bell : (twins.loading 0 "bell.wav").isInto 0 "bell.wav" ∧
    (twins.loading 0 "bell.wav").isThrough twins 0 "bell.wav" := by
  have hNew : (twins.shelf 0).library.clips.get? "bell.wav" = none := rfl
  have hKnown : (twins.shelf 0).cache.get? "bell.wav" = none := rfl
  have hFiles : twins.files = bellFiles := rfl
  rw [Loading.isInto_iff, Loading.isThrough_iff]
  refine ⟨⟨rfl, rfl, ?_⟩, rfl, rfl, ?_⟩
  · simp only [loading, Library.load, Act.perform_bind, Act.perform_get, hNew, hFiles,
      read_bellFiles]
    decide +kernel
  · simp only [loading, Library.found?, Library.analysis?, hNew, hKnown, hFiles, read_bellFiles]
    decide +kernel

/-- The bell is loaded into the first library; then its file is removed, and the second library
fails to load it. -/
def removal : List Step := [.load 0 "bell.wav", .change .empty, .load 1 "bell.wav"]

/-- Both libraries tell the bell's quiet points by the first one's settings, and only the first one
its length. -/
theorem removal_keepsFirst :
    twins.IsFresh ∧ (∀ t ∈ removal, t.IsAmong twins.libraries.length) ∧
      ((twins.after removal).shelf 0).duration "bell.wav" = .ok 1 ∧
      ((twins.after removal).shelf 1).points "bell.wav" =
        ([0, 1 / 10, 1 / 5, 3 / 10, 2 / 5] : List ℚ) := by
  have hFresh : twins.IsFresh := by
    constructor <;> simp [twins, Energy.Cache.empty]
  have hSteps : ∀ t ∈ removal, t.IsAmong twins.libraries.length := by
    simp [removal, Step.IsAmong, twins]
  have hKeeps := keepsFirst hFresh hSteps
  obtain ⟨hInto, hThrough⟩ := loading_bell
  obtain ⟨raw, -, hRead, hEver⟩ := hKeeps.first_clip 0 "bell.wav" (twins.loading 0 "bell.wav")
    (by decide) (List.find?_cons_of_pos hInto)
  obtain ⟨raw', points, hRead', hPoints, hAlways⟩ := hKeeps.first_points 1 "bell.wav"
    (twins.loading 0 "bell.wav") (by decide) (List.find?_cons_of_pos hThrough)
  obtain rfl : bellRaw = raw := Except.ok.inj (read_bellFiles.symm.trans hRead)
  obtain rfl : bellRaw = raw' := Except.ok.inj (read_bellFiles.symm.trans hRead')
  have hFound : (Library.analyze (twins.libraryAt 0) bellRaw).toOption =
      some ([0, 1 / 10, 1 / 5, 3 / 10, 2 / 5] : List ℚ) := by decide +kernel
  have hDuration := (hEver [] (List.forall_mem_nil _)).2.1
  have hTold := hAlways [] (List.forall_mem_nil _)
  rw [show (twins.loading 0 "bell.wav").library = 0 from rfl] at hPoints
  rw [hPoints] at hFound
  rw [List.append_nil] at hDuration hTold
  refine ⟨hFresh, hSteps, hDuration, ?_⟩
  rw [hTold]
  exact Option.some.inj hFound

end Radioplay.Shelves
