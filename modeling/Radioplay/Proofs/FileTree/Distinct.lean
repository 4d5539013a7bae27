import Mathlib.Data.List.Nodup
import Radioplay.Proofs.FileTree.Alike

/-! Trees with one node at each place. They stay so under all that changes a tree, and a folder
lists no name twice. -/

namespace Radioplay.FileTree

variable {t t' : FileTree} {place : List String} {path : String}

/-- Has a tree one entry for each of its places? -/
def IsDistinct (t : FileTree) : Prop := t.keys.Nodup

theorem isDistinct_empty : empty.IsDistinct := List.nodup_nil

/-! ### Changes -/

theorem IsDistinct.put (h : t.IsDistinct) (place : List String) (n : Node) :
    (t.put place n).IsDistinct := by
  rw [IsDistinct, keys_put]
  split
  · exact h
  · rename_i hNew
    exact List.nodup_append.mpr ⟨h, List.nodup_singleton place, fun p hp q hq =>
      List.mem_singleton.mp hq ▸ fun hEq => hNew (hEq ▸ hp)⟩

theorem IsDistinct.write {bytes : List UInt8} (h : t.IsDistinct)
    (hWrite : t.write path bytes = .ok t') : t'.IsDistinct := by
  obtain ⟨-, place, -, -, rfl⟩ := write_eq_ok_iff.mp hWrite
  exact h.put place _

theorem IsDistinct.makeFolder (h : t.IsDistinct) (hMake : t.makeFolder path = .ok t') :
    t'.IsDistinct := by
  obtain ⟨place, -, -, rfl⟩ := makeFolder_eq_ok_iff.mp hMake
  exact h.put place _

theorem IsDistinct.delete (h : t.IsDistinct) (hDelete : t.delete path = .ok t') :
    t'.IsDistinct := by
  obtain ⟨place, -, hRest⟩ := bind_eq_ok.mp hDelete
  split at hRest
  · cases hRest
  · cases hRest
  · cases hRest
    exact h.sublist ((List.filter_sublist).map Prod.fst)

/-! ### Lists of names -/

theorem IsDistinct.namesIn_nodup (h : t.IsDistinct) (place : List String) :
    (t.namesIn place).Nodup := by
  rw [namesIn_eq, sorted, (List.mergeSort_perm _ _).nodup_iff]
  refine List.Nodup.filterMap (fun p q x hp hq => ?_) h
  rw [eq_append_of_nameIn? hp, eq_append_of_nameIn? hq]

theorem IsDistinct.namesAt_nodup (h : t.IsDistinct) (path : String) : (t.namesAt path).Nodup := by
  unfold namesAt
  split
  · split
    · exact h.namesIn_nodup _
    · exact List.nodup_nil
  · exact List.nodup_nil

end Radioplay.FileTree
