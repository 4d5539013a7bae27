import Radioplay.Library.Shelves
import Radioplay.Proofs.Library.Kept

/-! One step among several libraries. A loading concerns its own library and the cache that serves
it; one that fails concerns nothing. A preloading is a row of loadings up to the first that fails,
and nothing depends on the notes. -/

namespace Radioplay

namespace Energy.Cache

variable {β : Type} {c : Energy.Cache β} {name : String}

theorem getOrCompute_of_some {p : β} (h : c.get? name = some p) (compute : Except Fault β) :
    c.getOrCompute name compute = (.ok p, c, 0) := by
  unfold getOrCompute
  rw [h]

theorem getOrCompute_of_none (h : c.get? name = none) (compute : Except Fault β) :
    c.getOrCompute name compute =
      (compute, match compute with | .ok p => ⟨c.profiles.put name p⟩ | .error _ => c, 1) := by
  unfold getOrCompute
  rw [h]
  cases compute <;> rfl

end Energy.Cache

namespace Library

variable {α : Type} [Sound.Kit] [Quantity α] {files : FileTree} {path : String} {s t : Shelf α}

/-! ### One loading -/

/-- The analysis that a loading runs: that of a clip which is not there, when it has been read and
told of, unless its quiet points are known. -/
def analysis? (files : FileTree) (path : String) (s : Shelf α) :
    Option (Except Fault (List α)) :=
  match s.library.clips.get? path, s.cache.get? path with
  | none, none =>
    match read files path with
    | .error _ => none
    | .ok raw =>
      match readNote path raw with
      | .error _ => none
      | .ok _ => some (analyze s.library raw)
  | _, _ => none

/-- The quiet points that a loading has found itself. -/
def found? (files : FileTree) (path : String) (s : Shelf α) : Option (List α) :=
  (analysis? files path s).bind Except.toOption

/-- How a loading comes out, what it has found itself, and the library and the cache after it. -/
inductive Brings (files : FileTree) (path : String) (s : Shelf α) :
    Except Fault Sound.Wave.Raw → Option (List α) → Library → Energy.Cache (List α) → Prop
  | there {raw : Sound.Wave.Raw} (hGet : s.library.clips.get? path = some raw) :
    Brings files path s (.ok raw) none s.library s.cache
  | failed {fault : Fault} : Brings files path s (.error fault) none s.library s.cache
  | shared {raw : Sound.Wave.Raw} {points : List α} (hGet : s.library.clips.get? path = none)
    (hRead : read files path = .ok raw) (hKnown : s.cache.get? path = some points) :
    Brings files path s (.ok raw) none
      { s.library with clips := s.library.clips.put path raw } s.cache
  | analyzed {raw : Sound.Wave.Raw} {points : List α} (hGet : s.library.clips.get? path = none)
    (hRead : read files path = .ok raw) (hNew : s.cache.get? path = none)
    (hPoints : analyze s.library raw = .ok points) :
    Brings files path s (.ok raw) (some points)
      { s.library with clips := s.library.clips.put path raw } ⟨s.cache.profiles.put path points⟩

/-- A clip that has been read is put in if the cache can answer for its quiet points. -/
theorem load_new {raw : Sound.Wave.Raw} {told : Note} (hGet : s.library.clips.get? path = none)
    (hRead : read files path = .ok raw) (hTold : readNote path raw = .ok told) :
    ∃ notes, (load files path).perform s =
      match s.cache.getOrCompute path (analyze s.library raw) with
      | (.ok _, cache, _) =>
        (.ok raw, ⟨{ s.library with clips := s.library.clips.put path raw }, cache, notes⟩)
      | (.error fault, cache, _) => (.error fault, ⟨s.library, cache, notes⟩) := by
  simp only [load, Act.perform_bind, Act.perform_get, hGet, Act.perform_ofExcept, hRead, hTold,
    perform_note, Act.perform_modify]
  rcases s.cache.getOrCompute path (analyze s.library raw) with ⟨fault | points, cache, runs⟩
  · exact ⟨_, rfl⟩
  · simp only
    split <;> exact ⟨_, rfl⟩

/-- What a loading does. -/
theorem load_brings (files : FileTree) (path : String) (s : Shelf α) :
    Brings files path s ((load files path).perform s).1 (found? files path s)
      ((load files path).perform s).2.library ((load files path).perform s).2.cache := by
  cases hGet : s.library.clips.get? path with
  | some raw =>
    simp only [load, Act.perform_bind, Act.perform_get, hGet, Act.perform_pure, found?, analysis?]
    exact .there hGet
  | none =>
    cases hRead : read files path with
    | error fault =>
      have hFound : found? files path s = none := by
        simp only [found?, analysis?, hGet, hRead]
        cases s.cache.get? path <;> rfl
      simp only [load, Act.perform_bind, Act.perform_get, hGet, Act.perform_ofExcept, hRead, hFound]
      exact .failed
    | ok raw =>
      cases hTold : readNote path raw with
      | error fault =>
        have hFound : found? files path s = none := by
          simp only [found?, analysis?, hGet, hRead, hTold]
          cases s.cache.get? path <;> rfl
        simp only [load, Act.perform_bind, Act.perform_get, hGet, Act.perform_ofExcept, hRead,
          hTold, hFound]
        exact .failed
      | ok told =>
        obtain ⟨notes, hLoad⟩ := load_new hGet hRead hTold
        cases hKnown : s.cache.get? path with
        | some points =>
          rw [hLoad, Energy.Cache.getOrCompute_of_some hKnown]
          simp only [found?, analysis?, hGet, hKnown]
          exact .shared hGet hRead hKnown
        | none =>
          rw [hLoad, Energy.Cache.getOrCompute_of_none hKnown]
          simp only [found?, analysis?, hGet, hKnown, hRead, hTold]
          cases hPoints : (analyze s.library raw : Except Fault (List α)) with
          | error fault => exact .failed
          | ok points => exact .analyzed hGet hRead hKnown hPoints

/-- A loading that succeeds adds its own clip. -/
theorem load_holds {raw : Sound.Wave.Raw} (h : (load files path).perform s = (.ok raw, t))
    (q : String) :
    (t.library.clips.get? q).isSome ↔ (s.library.clips.get? q).isSome ∨ q = path := by
  have hLoads := load_loads files path s
  rw [h] at hLoads
  cases hLoads with
  | there hGet =>
    constructor
    · exact Or.inl
    · rintro (hHeld | rfl)
      · exact hHeld
      · exact Option.isSome_iff_exists.mpr ⟨_, hGet⟩
  | put =>
    rw [Table.get?_put]
    by_cases hq : q = path
    · simp [hq]
    · simp [hq]

theorem preload_holds {paths : List String} (h : (preload files paths).perform s = (.ok (), t))
    (q : String) :
    (t.library.clips.get? q).isSome ↔ (s.library.clips.get? q).isSome ∨ q ∈ paths := by
  induction paths generalizing s with
  | nil =>
    obtain ⟨-, rfl⟩ := Act.perform_pure_eq_ok.mp h
    simp
  | cons path rest ih =>
    rw [preload, Act.perform_bind_eq_ok] at h
    obtain ⟨raw, s₁, hLoad, hRest⟩ := h
    rw [ih hRest, load_holds hLoad, List.mem_cons, or_assoc]

/-! ### Notes -/

/-- Two shelves with the same library and the same cache. -/
def Alike (s t : Shelf α) : Prop := s.library = t.library ∧ s.cache = t.cache

theorem load_alike (h : Alike s t) (files : FileTree) (path : String) :
    ((load files path).perform s).1 = ((load files path).perform t).1 ∧
      Alike ((load files path).perform s).2 ((load files path).perform t).2 := by
  obtain ⟨library, cache, notes⟩ := s
  obtain ⟨_, _, notes'⟩ := t
  obtain ⟨rfl, rfl⟩ := h
  simp only [load, Act.perform_bind, Act.perform_get]
  cases library.clips.get? path with
  | some raw => exact ⟨rfl, rfl, rfl⟩
  | none =>
    simp only [Act.perform_bind, Act.perform_ofExcept, perform_note, Act.perform_modify]
    cases read files path with
    | error fault => exact ⟨rfl, rfl, rfl⟩
    | ok raw =>
      simp only
      cases readNote path raw with
      | error fault => exact ⟨rfl, rfl, rfl⟩
      | ok told =>
        simp only
        rcases cache.getOrCompute path (analyze library raw) with ⟨fault | points, cache', runs⟩
        · exact ⟨rfl, rfl, rfl⟩
        · simp only
          split <;> exact ⟨rfl, rfl, rfl⟩

theorem preload_alike (h : Alike s t) (files : FileTree) (paths : List String) :
    ((preload files paths).perform s).1 = ((preload files paths).perform t).1 ∧
      Alike ((preload files paths).perform s).2 ((preload files paths).perform t).2 := by
  induction paths generalizing s t with
  | nil => exact ⟨rfl, h⟩
  | cons path rest ih =>
    obtain ⟨hOutcome, hAlike⟩ := load_alike h files path
    simp only [preload, Act.perform_bind]
    rcases hs : (load files path).perform s with ⟨outcome, s'⟩
    rcases ht : (load files path).perform t with ⟨outcome', t'⟩
    rw [hs, ht] at hOutcome hAlike
    obtain rfl : outcome = outcome' := hOutcome
    cases outcome with
    | error fault => exact ⟨rfl, hAlike⟩
    | ok raw => exact ih hAlike

end Library

namespace Shelves

variable {α : Type} {s : Shelves α} {i k : ℕ} {shelf shelf' : Shelf α}

/-! ### The libraries and the caches by their numbers -/

def libraryAt (s : Shelves α) (i : ℕ) : Library := (s.libraries[i]?.getD default).1

/-- The number of the cache that serves a library. -/
def cacheOf (s : Shelves α) (i : ℕ) : ℕ := (s.libraries[i]?.getD default).2

def cacheAt (s : Shelves α) (j : ℕ) : Energy.Cache (List α) := s.caches[j]?.getD default

theorem shelf_eq (s : Shelves α) (i : ℕ) :
    s.shelf i = ⟨s.libraryAt i, s.cacheAt (s.cacheOf i), []⟩ := rfl

/-- There is a library of the given number, and a cache to serve it. -/
def Has (s : Shelves α) (i : ℕ) : Prop :=
  i < s.libraries.length ∧ s.cacheOf i < s.caches.length

theorem replace_eq (s : Shelves α) (i : ℕ) (shelf : Shelf α) :
    s.replace i shelf =
      { s with
        libraries := s.libraries.set i (shelf.library, s.cacheOf i)
        caches := s.caches.set (s.cacheOf i) shelf.cache } := rfl

@[simp] theorem replace_files : (s.replace i shelf).files = s.files := rfl

@[simp] theorem cacheOf_replace (s : Shelves α) (i k : ℕ) (shelf : Shelf α) :
    (s.replace i shelf).cacheOf k = s.cacheOf k := by
  simp only [replace_eq, cacheOf, List.getElem?_set]
  split
  · rename_i hSame
    subst hSame
    split
    · rfl
    · rename_i hPast
      rw [List.getElem?_eq_none (Nat.not_lt.mp hPast)]
  · rfl

theorem libraryAt_replace (h : s.Has i) (k : ℕ) (shelf : Shelf α) :
    (s.replace i shelf).libraryAt k = if k = i then shelf.library else s.libraryAt k := by
  simp only [replace_eq, libraryAt, List.getElem?_set, h.1, if_true, eq_comm (a := i)]
  split <;> rfl

theorem cacheAt_replace (h : s.Has i) (k : ℕ) (shelf : Shelf α) :
    (s.replace i shelf).cacheAt k = if k = s.cacheOf i then shelf.cache else s.cacheAt k := by
  simp only [replace_eq, cacheAt, List.getElem?_set, h.2, if_true, eq_comm (a := s.cacheOf i)]
  split <;> rfl

theorem has_replace_iff : (s.replace i shelf).Has k ↔ s.Has k := by
  simp only [Has, cacheOf_replace]
  simp only [replace_eq, List.length_set]

theorem replace_congr (h : Library.Alike shelf shelf') :
    s.replace i shelf = s.replace i shelf' := by
  rw [replace_eq, replace_eq, h.1, h.2]

theorem replace_replace : (s.replace i shelf).replace i shelf' = s.replace i shelf' := by
  rw [replace_eq (s.replace i shelf), cacheOf_replace]
  simp only [replace_eq, List.set_set]

theorem set_getD {β : Type} [Inhabited β] (xs : List β) (n : ℕ) :
    xs.set n (xs[n]?.getD default) = xs := by
  by_cases h : n < xs.length
  · rw [List.getElem?_eq_getElem h, Option.getD_some, List.set_getElem_self]
  · exact List.set_eq_of_length_le (Nat.not_lt.mp h)

/-- A library and a cache that are taken back as they were change nothing. -/
theorem replace_self (h : Library.Alike shelf (s.shelf i)) : s.replace i shelf = s := by
  have hLibraries : s.libraries.set i (s.libraryAt i, s.cacheOf i) = s.libraries :=
    set_getD s.libraries i
  have hCaches : s.caches.set (s.cacheOf i) (s.cacheAt (s.cacheOf i)) = s.caches :=
    set_getD s.caches (s.cacheOf i)
  rw [replace_congr h, replace_eq, shelf_eq, hLibraries, hCaches]

theorem shelf_replace (h : s.Has i) : Library.Alike ((s.replace i shelf).shelf i) shelf := by
  constructor
  · rw [shelf_eq, libraryAt_replace h, if_pos rfl]
  · rw [shelf_eq, cacheOf_replace, cacheAt_replace h, if_pos rfl]

/-- A library has a clip for a path. -/
def Holds (s : Shelves α) (i : ℕ) (path : String) : Prop :=
  ((s.libraryAt i).clips.get? path).isSome

/-! ### Steps -/

variable [Sound.Kit] [Quantity α] {path : String}

/-- One loading among several libraries. -/
structure Loading (α : Type) where
  library : ℕ
  path : String
  /-- The files as they were. -/
  files : FileTree
  outcome : Except Fault Sound.Wave.Raw
  /-- The quiet points that the loading has found itself. -/
  found : Option (List α)

/-- A loading that is about to happen. -/
def loading (s : Shelves α) (i : ℕ) (path : String) : Loading α where
  library := i
  path := path
  files := s.files
  outcome := ((Library.load s.files path).perform (s.shelf i)).1
  found := Library.found? s.files path (s.shelf i)

/-- What a loading makes of the shelves. Only a clip that was not there is put in, with quiet points
that the cache has already, or that are put in with it. -/
inductive Moves (s : Shelves α) (i : ℕ) (path : String) : Loading α → Shelves α → Prop
  | there {raw : Sound.Wave.Raw} (hGet : (s.libraryAt i).clips.get? path = some raw) :
    Moves s i path ⟨i, path, s.files, .ok raw, none⟩ s
  | failed {fault : Fault} : Moves s i path ⟨i, path, s.files, .error fault, none⟩ s
  | shared {raw : Sound.Wave.Raw} {points : List α} {notes : List Note}
    (hGet : (s.libraryAt i).clips.get? path = none)
    (hRead : Library.read s.files path = .ok raw)
    (hKnown : (s.cacheAt (s.cacheOf i)).get? path = some points) :
    Moves s i path ⟨i, path, s.files, .ok raw, none⟩
      (s.replace i ⟨{ s.libraryAt i with clips := (s.libraryAt i).clips.put path raw },
        s.cacheAt (s.cacheOf i), notes⟩)
  | analyzed {raw : Sound.Wave.Raw} {points : List α} {notes : List Note}
    (hGet : (s.libraryAt i).clips.get? path = none)
    (hRead : Library.read s.files path = .ok raw)
    (hNew : (s.cacheAt (s.cacheOf i)).get? path = none)
    (hPoints : Library.analyze (s.libraryAt i) raw = .ok points) :
    Moves s i path ⟨i, path, s.files, .ok raw, some points⟩
      (s.replace i ⟨{ s.libraryAt i with clips := (s.libraryAt i).clips.put path raw },
        ⟨(s.cacheAt (s.cacheOf i)).profiles.put path points⟩, notes⟩)

theorem step_load (s : Shelves α) (i : ℕ) (path : String) :
    s.step (.load i path) = ((s.loading i path).outcome.map fun _ => (),
      s.replace i ((Library.load s.files path).perform (s.shelf i)).2) := rfl

theorem step_load_moves (s : Shelves α) (i : ℕ) (path : String) :
    s.Moves i path (s.loading i path) (s.step (.load i path)).2 := by
  have hBrings := Library.load_brings s.files path (s.shelf i)
  rw [step_load, loading]
  generalize ((Library.load s.files path).perform (s.shelf i)).1 = outcome at hBrings
  generalize Library.found? s.files path (s.shelf i) = found at hBrings
  generalize ((Library.load s.files path).perform (s.shelf i)).2 = shelf at hBrings
  obtain ⟨library, cache, notes⟩ := shelf
  have hBack : s.replace i ⟨s.libraryAt i, s.cacheAt (s.cacheOf i), notes⟩ = s :=
    replace_self ⟨rfl, rfl⟩
  cases hBrings with
  | there hGet =>
    change s.Moves i path _ (s.replace i ⟨s.libraryAt i, s.cacheAt (s.cacheOf i), notes⟩)
    rw [hBack]
    exact .there hGet
  | failed =>
    change s.Moves i path _ (s.replace i ⟨s.libraryAt i, s.cacheAt (s.cacheOf i), notes⟩)
    rw [hBack]
    exact .failed
  | shared hGet hRead hKnown => exact .shared hGet hRead hKnown
  | analyzed hGet hRead hNew hPoints => exact .analyzed hGet hRead hNew hPoints

/-- A loading that fails changes nothing. -/
theorem step_load_error {fault : Fault} (h : (s.step (.load i path)).1 = .error fault) :
    (s.step (.load i path)).2 = s := by
  have hMoves := step_load_moves s i path
  have hOutcome : (s.loading i path).outcome.map (fun _ => ()) = .error fault := h
  generalize s.loading i path = l at hMoves hOutcome
  generalize (s.step (.load i path)).2 = s' at hMoves
  cases hMoves with
  | failed => rfl
  | there => cases hOutcome
  | shared => cases hOutcome
  | analyzed => cases hOutcome

theorem step_preload_nil (s : Shelves α) (i : ℕ) : s.step (.preload i []) = (.ok (), s) :=
  Prod.ext rfl (replace_self ⟨rfl, rfl⟩)

/-- A preloading loads the first clip, and goes on with the rest if that has not failed. -/
theorem step_preload_cons (h : s.Has i) (path : String) (rest : List String) :
    s.step (.preload i (path :: rest)) =
      match s.step (.load i path) with
      | (.ok (), s') => s'.step (.preload i rest)
      | (.error fault, s') => (.error fault, s') := by
  rw [step_load, loading]
  simp only [step, on, Library.preload, Act.perform_bind]
  rcases (Library.load s.files path).perform (s.shelf i) with ⟨fault | raw, shelf⟩
  · rfl
  · obtain ⟨hOutcome, hAlike⟩ :=
      Library.preload_alike (shelf_replace h : Library.Alike _ shelf) s.files rest
    simp only [Except.map, replace_files, hOutcome, replace_replace, replace_congr hAlike]

end Shelves

end Radioplay
