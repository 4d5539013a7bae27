import Radioplay.Proofs.FileTree.Names

/-! What writing does to a tree. A node put at one place changes no other, and where no folder is
lost every path that has led somewhere leads there still; so a file that has been written is read
as it was written. -/

namespace Radioplay.FileTree

variable {t t' t'' : FileTree} {place p : List String} {n : Node} {path : String}
  {bytes : List UInt8}

/-! ### A node put at a place -/

theorem lookup_replace (nodes : List (List String × Node)) (place : List String) (n : Node)
    (p : List String) :
    (nodes.map fun e => if e.1 = place then (place, n) else e).lookup p =
      if p = place then (nodes.lookup p).map fun _ => n else nodes.lookup p := by
  induction nodes with
  | nil => simp
  | cons e nodes ih =>
    by_cases hPlace : e.1 = place <;> by_cases hKey : p = e.1 <;> grind

theorem lookup_put (t : FileTree) (place : List String) (n : Node) (p : List String) :
    (t.put place n).nodes.lookup p = if p = place then some n else t.nodes.lookup p := by
  unfold put
  split
  · rename_i hThere
    rw [lookup_replace]
    split
    · rename_i hEq
      obtain ⟨m, hm⟩ := Option.isSome_iff_exists.mp hThere
      rw [hEq, hm, Option.map_some]
    · rfl
  · rename_i hNew
    rw [List.lookup_append]
    split
    · rename_i hEq
      rw [hEq, Option.not_isSome_iff_eq_none.mp hNew]
      simp
    · rename_i hNe
      have hOther : (p == place) = false := by simpa using hNe
      simp [List.lookup_cons, hOther]

/-- Wherever something other than a given folder may be, it is there once it is put there. -/
theorem node?_put_self (h : t.node? place ≠ some .folder) (n : Node) :
    (t.put place n).node? place = some n := by
  have hGiven : ¬ isGiven place = true := fun hGiven => h (by rw [node?, if_pos hGiven])
  rw [node?, if_neg hGiven, lookup_put, if_pos rfl]

theorem node?_put_of_ne (t : FileTree) (n : Node) (h : p ≠ place) :
    (t.put place n).node? p = t.node? p := by
  rw [node?, node?, lookup_put, if_neg h]

theorem node?_put (h : t.node? place ≠ some .folder) (n : Node) (p : List String) :
    (t.put place n).node? p = if p = place then some n else t.node? p := by
  split
  · rename_i hEq
    rw [hEq, node?_put_self h]
  · rename_i hNe
    exact node?_put_of_ne t n hNe

/-! ### Folders that stay -/

/-- Are the folders of a tree folders of another too? -/
def KeepsFolders (t t' : FileTree) : Prop :=
  ∀ place, t.node? place = some .folder → t'.node? place = some .folder

theorem KeepsFolders.refl (t : FileTree) : KeepsFolders t t := fun _ h => h

theorem KeepsFolders.trans (h : KeepsFolders t t') (h' : KeepsFolders t' t'') :
    KeepsFolders t t'' := fun place hFolder => h' place (h place hFolder)

theorem keepsFolders_put (h : t.node? place ≠ some .folder) (n : Node) :
    KeepsFolders t (t.put place n) := by
  intro p hFolder
  rw [node?_put_of_ne t n]
  · exact hFolder
  · rintro rfl
    exact h hFolder

theorem KeepsFolders.follow (h : KeepsFolders t t') {here cs : List String}
    (hFollow : t.follow here cs = .ok place) : t'.follow here cs = .ok place := by
  induction cs generalizing here with
  | nil => exact hFollow
  | cons c cs ih =>
    obtain ⟨hHere, next, hStep, hRest⟩ := follow_cons_ok_iff.mp hFollow
    exact follow_cons_ok_iff.mpr ⟨h here hHere, next, hStep, ih hRest⟩

theorem KeepsFolders.locateBy (h : KeepsFolders t t') {cs : List String}
    (hLocate : t.locateBy path cs = .ok place) : t'.locateBy path cs = .ok place := by
  obtain ⟨hEmpty, hSize, hNull, hFollow⟩ := locateBy_ok_iff.mp hLocate
  exact locateBy_ok_iff.mpr ⟨hEmpty, hSize, hNull, h.follow hFollow⟩

theorem KeepsFolders.locate (h : KeepsFolders t t') (hLocate : t.locate path = .ok place) :
    t'.locate path = .ok place := h.locateBy hLocate

theorem KeepsFolders.isFolder (h : KeepsFolders t t') (hFolder : t.isFolder path = true) :
    t'.isFolder path = true := by
  obtain ⟨place, hLocate, hNode⟩ := isFolder_iff.mp hFolder
  exact isFolder_iff.mpr ⟨place, h.locate hLocate, h place hNode⟩

/-! ### Files written and read -/

theorem write_eq_ok_iff :
    t.write path bytes = .ok t' ↔
      Path.trimmed path = path ∧ ∃ place, t.locate path = .ok place ∧
        t.node? place ≠ some .folder ∧ t' = t.put place (.file bytes) := by
  unfold FileTree.write
  simp only
  constructor
  · intro h
    split at h
    · rename_i hTrimmed
      obtain ⟨place, hLocate, hPut⟩ := bind_eq_ok.mp h
      rw [hTrimmed] at hLocate
      split at hPut
      · cases hPut
      · rename_i hNode
        cases hPut
        exact ⟨hTrimmed, place, hLocate, hNode, rfl⟩
    · obtain ⟨_, -, hError⟩ := bind_eq_ok.mp h
      cases hError
  · rintro ⟨hTrimmed, place, hLocate, hNode, rfl⟩
    rw [if_pos hTrimmed, hTrimmed]
    refine bind_eq_ok.mpr ⟨place, hLocate, ?_⟩
    split
    · rename_i hFolder
      exact absurd hFolder hNode
    · rfl

theorem read_eq_ok_iff :
    t.read path = .ok bytes ↔
      ∃ place, t.locate path = .ok place ∧ t.node? place = some (.file bytes) := by
  unfold FileTree.read
  rw [bind_eq_ok]
  refine exists_congr fun place => and_congr_right fun _ => ?_
  split <;> simp_all

theorem exists?_of_read (h : t.read path = .ok bytes) : t.exists? path = true := by
  obtain ⟨place, hLocate, hNode⟩ := read_eq_ok_iff.mp h
  simp [exists?, find?, hLocate, hNode]

/-- What can be written once can be written again. -/
theorem write_of_write (h : t.write path bytes = .ok t') (bytes' : List UInt8) :
    ∃ t'', t'.write path bytes' = .ok t'' := by
  obtain ⟨hTrimmed, place, hLocate, hNode, rfl⟩ := write_eq_ok_iff.mp h
  refine ⟨_, write_eq_ok_iff.mpr
    ⟨hTrimmed, place, (keepsFolders_put hNode _).locate hLocate, ?_, rfl⟩⟩
  rw [node?_put_self hNode]
  exact fun hFile => nomatch hFile

end Radioplay.FileTree
