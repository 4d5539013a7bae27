import Radioplay.Proofs.FileTree.Writing

/-! Trees that grow. New places come after the old ones, and folders stay folders; a file that is
written is put in its place, and nothing else changes. -/

namespace Radioplay.FileTree

variable {t t' t'' : FileTree} {place p : List String} {path : String} {bytes bytes' : List UInt8}

/-- The places that a tree has entries for, in order. -/
def keys (t : FileTree) : List (List String) := t.nodes.map Prod.fst

theorem mem_keys_iff : place ∈ t.keys ↔ (t.nodes.lookup place).isSome = true := by
  rw [List.lookup_isSome_iff, keys, List.mem_map]
  exact exists_congr fun e => and_congr_right fun _ => by rw [beq_iff_eq, eq_comm]

theorem keys_put (t : FileTree) (place : List String) (n : Node) :
    (t.put place n).keys = if place ∈ t.keys then t.keys else t.keys ++ [place] := by
  by_cases hThere : place ∈ t.keys
  · rw [if_pos hThere, put, if_pos (mem_keys_iff.mp hThere), keys, keys, List.map_map]
    refine List.map_congr_left fun e _ => ?_
    simp only [Function.comp_apply]
    split
    · rename_i hEq
      exact hEq.symm
    · rfl
  · rw [if_neg hThere, put, if_neg (mt mem_keys_iff.mpr hThere), keys, keys, List.map_append]
    rfl

theorem node?_isSome_iff : (t.node? p).isSome = true ↔ isGiven p = true ∨ p ∈ t.keys := by
  unfold node?
  split
  · simp [*]
  · rename_i hGiven
    simp only [hGiven, List.lookup_isSome_iff, keys, List.mem_map]
    simp

/-- Has a tree all places of another, in their order, with new ones after them? And are folders
folders still? -/
structure Extends (t t' : FileTree) : Prop where
  keys_eq : ∃ added, t'.keys = t.keys ++ added ∧ ∀ p ∈ added, t.node? p = none
  folders : KeepsFolders t t'

theorem Extends.refl (t : FileTree) : Extends t t :=
  ⟨⟨[], (List.append_nil _).symm, fun _ h => nomatch h⟩, .refl t⟩

theorem Extends.node?_eq_none (h : Extends t t') (hNone : t'.node? p = none) :
    t.node? p = none := by
  obtain ⟨added, hKeys, -⟩ := h.keys_eq
  rw [← Option.not_isSome_iff_eq_none, node?_isSome_iff] at hNone ⊢
  rw [hKeys] at hNone
  exact fun hThere => hNone (hThere.imp_right (List.mem_append_left _))

theorem Extends.trans (h : Extends t t') (h' : Extends t' t'') : Extends t t'' := by
  obtain ⟨added, hKeys, hNew⟩ := h.keys_eq
  obtain ⟨added', hKeys', hNew'⟩ := h'.keys_eq
  refine ⟨⟨added ++ added', by rw [hKeys', hKeys, List.append_assoc], fun p hp => ?_⟩,
    h.folders.trans h'.folders⟩
  rcases List.mem_append.mp hp with hp | hp
  · exact hNew p hp
  · exact h.node?_eq_none (hNew' p hp)

theorem extends_put (h : t.node? place ≠ some .folder) (n : Node) :
    Extends t (t.put place n) := by
  refine ⟨?_, keepsFolders_put h n⟩
  rw [keys_put]
  split
  · exact ⟨[], (List.append_nil _).symm, fun _ h => nomatch h⟩
  · rename_i hNew
    refine ⟨[place], rfl, fun p hp => ?_⟩
    have hGiven : ¬ isGiven place = true := fun hGiven => h (by rw [node?, if_pos hGiven])
    rw [List.mem_singleton.mp hp, node?, if_neg hGiven]
    exact Option.not_isSome_iff_eq_none.mp (mt mem_keys_iff.mpr hNew)

/-! ### Files put in their place -/

/-- Has a file been put where a path leads, and nothing else been changed? -/
structure PutsFile (path : String) (bytes : List UInt8) (place : List String) (t t' : FileTree) :
    Prop where
  trimmed : Path.trimmed path = path
  locate_eq : t.locate path = .ok place
  not_folder : t.node? place ≠ some .folder
  extended : Extends t t'
  node?_eq : ∀ p, t'.node? p = if p = place then some (.file bytes) else t.node? p

theorem putsFile_of_write (h : t.write path bytes = .ok t') :
    ∃ place, PutsFile path bytes place t t' := by
  obtain ⟨hTrimmed, place, hLocate, hNode, rfl⟩ := write_eq_ok_iff.mp h
  exact ⟨place, hTrimmed, hLocate, hNode, extends_put hNode _, node?_put hNode _⟩

theorem PutsFile.node?_self (h : PutsFile path bytes place t t') :
    t'.node? place = some (.file bytes) := by rw [h.node?_eq, if_pos rfl]

theorem PutsFile.locate_after (h : PutsFile path bytes place t t') : t'.locate path = .ok place :=
  h.extended.folders.locate h.locate_eq

theorem PutsFile.read (h : PutsFile path bytes place t t') : t'.read path = .ok bytes :=
  read_eq_ok_iff.mpr ⟨place, h.locate_after, h.node?_self⟩

/-- Of two files put in one place the second stays. -/
theorem PutsFile.trans {place' : List String} (h : PutsFile path bytes place t t')
    (h' : PutsFile path bytes' place' t' t'') : PutsFile path bytes' place t t'' := by
  obtain rfl : place' = place := Except.ok.inj (h'.locate_eq.symm.trans h.locate_after)
  refine ⟨h.trimmed, h.locate_eq, h.not_folder, h.extended.trans h'.extended, fun p => ?_⟩
  rw [h'.node?_eq, h.node?_eq]
  split <;> rfl

/-- Do two trees have the same everywhere? -/
def SameNodes (t t' : FileTree) : Prop := ∀ p, t'.node? p = t.node? p

theorem SameNodes.keepsFolders (h : SameNodes t t') : KeepsFolders t t' :=
  fun place hFolder => (h place).trans hFolder

theorem SameNodes.trans (h : SameNodes t t') (h' : SameNodes t' t'') : SameNodes t t'' :=
  fun p => (h' p).trans (h p)

/-- A file put where it is already changes nothing. -/
theorem PutsFile.sameNodes (h : PutsFile path bytes place t t')
    (hThere : t.node? place = some (.file bytes)) : SameNodes t t' := by
  intro p
  rw [h.node?_eq]
  split
  · rename_i hSame
    rw [hSame, hThere]
  · rfl

end Radioplay.FileTree
