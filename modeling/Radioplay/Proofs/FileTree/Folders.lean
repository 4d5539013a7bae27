import Mathlib.Logic.Function.Iterate
import Radioplay.Proofs.FileTree.Growing
import Radioplay.Proofs.FileTree.Parents

/-! Folders made on the way to one. They are put where nothing was, at the ends of the path and of
those that come before its last parts; what was there stays as it was. Where the folder is there
already, nothing is made. -/

namespace Radioplay.FileTree

variable {t t' t'' : FileTree} {place p : List String} {path : String}

/-! ### Folders made -/

/-- The slashes at the end of a path lead nowhere else, once a folder is where it leads without
them. -/
theorem locate_of_trimmed (h : t.locateBy path (Path.components (Path.trimmed path)) = .ok place)
    (hFolder : t.node? place = some .folder) : t.locate path = .ok place := by
  obtain ⟨hEmpty, hSize, hNull, hFollow⟩ := locateBy_ok_iff.mp h
  obtain ⟨n, hComponents⟩ := Path.components_trimmed path
  refine locateBy_ok_iff.mpr ⟨hEmpty, hSize, hNull, ?_⟩
  rw [hComponents]
  exact follow_append_blanks t _ _ n hFollow hFolder

/-- Where a path leads to something, so does it without the slashes at its end. -/
theorem node?_of_trimmed {place' : List String}
    (h : t.locateBy path (Path.components (Path.trimmed path)) = .ok place)
    (hLocate : t.locate path = .ok place') (hThere : (t.node? place').isSome = true) :
    (t.node? place).isSome = true := by
  obtain ⟨-, -, -, hFollow⟩ := locateBy_ok_iff.mp h
  obtain ⟨-, -, -, hWhole⟩ := locateBy_ok_iff.mp hLocate
  obtain ⟨n, hComponents⟩ := Path.components_trimmed path
  rw [hComponents, follow_append, hFollow] at hWhole
  cases n with
  | zero => rwa [Except.ok.inj hWhole]
  | succ n => rw [(follow_cons_ok_iff.mp hWhole).1]; rfl

theorem makeFolder_eq_ok_iff :
    t.makeFolder path = .ok t' ↔
      ∃ place, t.locateBy path (Path.components (Path.trimmed path)) = .ok place ∧
        t.node? place = none ∧ t' = t.put place .folder := by
  unfold FileTree.makeFolder
  rw [bind_eq_ok]
  refine exists_congr fun place => and_congr_right fun _ => ?_
  cases t.node? place with
  | none => simp [eq_comm]
  | some n => simp

/-- Has nothing changed but that folders have been made where nothing was, at the ends of the given
paths? -/
structure MakesFolders (paths : String → Prop) (t t' : FileTree) : Prop where
  extended : Extends t t'
  made : ∀ place, t'.node? place = t.node? place ∨
    (t.node? place = none ∧ t'.node? place = some .folder ∧
      ∃ path, paths path ∧ t'.locate path = .ok place)

variable {paths : String → Prop}

theorem MakesFolders.refl (paths : String → Prop) (t : FileTree) : MakesFolders paths t t :=
  ⟨.refl t, fun _ => .inl rfl⟩

theorem MakesFolders.trans (h : MakesFolders paths t t') (h' : MakesFolders paths t' t'') :
    MakesFolders paths t t'' := by
  refine ⟨h.extended.trans h'.extended, fun place => ?_⟩
  rcases h'.made place with hSame | ⟨hNone, hFolder, hPath⟩
  · rcases h.made place with hSame' | ⟨hNone, hFolder, path, hPath, hLocate⟩
    · exact .inl (hSame.trans hSame')
    · exact .inr ⟨hNone, hSame.trans hFolder, path, hPath, h'.extended.folders.locate hLocate⟩
  · exact .inr ⟨h.extended.node?_eq_none hNone, hFolder, hPath⟩

theorem makesFolders_makeFolder (hPath : paths path) (h : t.makeFolder path = .ok t') :
    MakesFolders paths t t' ∧ t'.isFolder path = true := by
  obtain ⟨place, hLocate, hNone, rfl⟩ := makeFolder_eq_ok_iff.mp h
  have hNew : t.node? place ≠ some .folder := by simp [hNone]
  have hFolder := node?_put_self hNew .folder
  have hLeads : (t.put place .folder).locate path = .ok place :=
    locate_of_trimmed ((keepsFolders_put hNew _).locateBy hLocate) hFolder
  refine ⟨⟨extends_put hNew _, fun p => ?_⟩, isFolder_iff.mpr ⟨place, hLeads, hFolder⟩⟩
  by_cases hp : p = place
  · subst hp
    exact .inr ⟨hNone, hFolder, path, hPath, hLeads⟩
  · exact .inl (node?_put_of_ne t _ hp)

theorem perform_ensureFolder_eq_ok :
    (ensureFolder path).perform t = (.ok (), t') ↔
      t.makeFolder path = .ok t' ∨
        ((∃ fault, t.makeFolder path = .error fault) ∧ t.isFolder path = true ∧ t' = t) := by
  rw [ensureFolder, Act.perform_bind, Act.perform_get]
  cases hMake : t.makeFolder path with
  | ok made => simp [hMake]
  | error fault =>
    by_cases hFolder : t.isFolder path = true <;> simp [hMake, hFolder, eq_comm]

theorem perform_makeAll_cons {rest : List String}
    (h : (makeAll (path :: rest)).perform t = (.ok (), t')) :
    ∃ t₁, (t.makeFolder path = .ok t₁ ∨ t₁ = t) ∧ (makeAll rest).perform t₁ = (.ok (), t') := by
  rw [makeAll, Act.perform_bind, Act.perform_get] at h
  simp only at h
  split at h
  · rename_i made hMake
    exact ⟨made, .inl hMake, h⟩
  · exact ⟨t, .inr rfl, h⟩
  · cases h

theorem makeAll_makes {all : List String} (hPaths : ∀ path ∈ all, paths path)
    (h : (makeAll all).perform t = (.ok (), t')) : MakesFolders paths t t' := by
  induction all generalizing t with
  | nil =>
    obtain ⟨-, rfl⟩ := Act.perform_pure_eq_ok.mp h
    exact .refl paths t
  | cons path rest ih =>
    obtain ⟨t₁, hStep, hRest⟩ := perform_makeAll_cons h
    have hMakesRest := ih (fun q hq => hPaths q (List.mem_cons_of_mem path hq)) hRest
    rcases hStep with hMake | rfl
    · exact (makesFolders_makeFolder (hPaths path List.mem_cons_self) hMake).1.trans hMakesRest
    · exact hMakesRest

/-- A path, without the slash that it may end in. -/
def whole (path : String) : String :=
  if (Path.baseName path).isEmpty then Path.parent path else path

theorem missingParents_succ (t : FileTree) (fuel : ℕ) (path : String) :
    t.missingParents (fuel + 1) path =
      if (Path.parent (whole path)).isEmpty ∨ (Path.baseName (whole path)).isEmpty ∨
          t.exists? (Path.parent (whole path)) then []
      else t.missingParents fuel (Path.parent (whole path)) ++ [Path.parent (whole path)] := rfl

theorem parent_whole (path : String) : ∃ k, Path.parent (whole path) = Path.parent^[k] path := by
  unfold whole
  split
  · exact ⟨2, by simp only [Function.iterate_succ_apply, Function.iterate_zero_apply]⟩
  · exact ⟨1, by rw [Function.iterate_one]⟩

/-- The folders to be made on the way to a path are its parents. -/
theorem mem_missingParents {fuel : ℕ} {q : String} (h : q ∈ t.missingParents fuel path) :
    ∃ k, q = Path.parent^[k] path := by
  induction fuel generalizing path with
  | zero => cases h
  | succ fuel ih =>
    obtain ⟨k, hHead⟩ := parent_whole path
    rw [missingParents_succ] at h
    split at h
    · cases h
    · rcases List.mem_append.mp h with h | h
      · obtain ⟨j, rfl⟩ := ih h
        exact ⟨j + k, by rw [hHead, Function.iterate_add_apply]⟩
      · exact ⟨k, by rw [List.mem_singleton.mp h, hHead]⟩

/-- Folders are made at the ends of a path and of its parents, and the path leads to one. -/
theorem ensureFolders_makes (h : (ensureFolders path).perform t = (.ok (), t')) :
    MakesFolders (fun q => ∃ k, q = Path.parent^[k] path) t t' ∧ t'.isFolder path = true := by
  rw [ensureFolders, Act.perform_bind, Act.perform_get] at h
  simp only at h
  split at h
  · cases h
  · obtain ⟨_, t₁, hAll, hLast⟩ := Act.perform_bind_eq_ok.mp h
    have hMakes := makeAll_makes (fun q hq => mem_missingParents hq) hAll
    rcases perform_ensureFolder_eq_ok.mp hLast with hMake | ⟨-, hFolder, rfl⟩
    · obtain ⟨hMakesLast, hFolder⟩ : MakesFolders (fun q => ∃ k, q = Path.parent^[k] path) t₁ t' ∧
          t'.isFolder path = true := makesFolders_makeFolder ⟨0, rfl⟩ hMake
      exact ⟨hMakes.trans hMakesLast, hFolder⟩
    · exact ⟨hMakes, hFolder⟩

/-! ### Folders that are there -/

theorem whole_leads (hLocate : t.locate path = .ok place) :
    whole path = "" ∨ ∃ place', t.locate (whole path) = .ok place' := by
  unfold whole
  split
  · by_cases hParent : Path.parent path = ""
    · exact .inl hParent
    · obtain ⟨folder, hFolder, -, -⟩ := locate_parent hParent hLocate
      exact .inr ⟨folder, hFolder⟩
  · exact .inr ⟨place, hLocate⟩

/-- Where a path leads somewhere, there is nothing to be made on the way. -/
theorem missingParents_of_locate (hLocate : t.locate path = .ok place) (fuel : ℕ) :
    t.missingParents fuel path = [] := by
  cases fuel with
  | zero => rfl
  | succ fuel =>
    rw [missingParents_succ, if_pos]
    by_cases hHead : Path.parent (whole path) = ""
    · exact .inl (by rw [hHead]; rfl)
    rcases whole_leads hLocate with hEmpty | ⟨place', hWhole⟩
    · exact absurd (by rw [hEmpty]; rfl) hHead
    · obtain ⟨folder, hFolder, hNode, -⟩ := locate_parent hHead hWhole
      exact .inr (.inr (by simp [exists?, find?, hFolder, hNode]))

/-- Where a path leads to a folder, there is nothing to be made. -/
theorem ensureFolders_of_isFolder (h : t.isFolder path = true) :
    (ensureFolders path).perform t = (.ok (), t) := by
  obtain ⟨place, hLocate, hNode⟩ := isFolder_iff.mp h
  rw [ensureFolders, Act.perform_bind, Act.perform_get]
  simp only [missingParents_of_locate hLocate, List.length_nil, Nat.not_lt_zero, if_false]
  rw [Act.perform_bind, makeAll, Act.perform_pure]
  simp only
  rw [perform_ensureFolder_eq_ok]
  cases hMake : t.makeFolder path with
  | error fault => exact .inr ⟨⟨fault, rfl⟩, h, rfl⟩
  | ok made =>
    obtain ⟨place', hTrimmed, hNone, -⟩ := makeFolder_eq_ok_iff.mp hMake
    have hThere := node?_of_trimmed hTrimmed hLocate (by simp [hNode])
    simp [hNone] at hThere

end Radioplay.FileTree
