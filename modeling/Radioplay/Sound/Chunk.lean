/-! Sequences cut into pieces of equal length, the last of which may be shorter. -/

namespace Radioplay.Sound

variable {β : Type}

/-- The pieces of `w` that `s` falls into, after those in `done`, last first. -/
def chunksFrom (w : Nat) (done : List (List β)) : List β → List (List β)
  | [] => done.reverse
  | x :: s =>
    if _h : w = 0 then done.reverse
    else chunksFrom w ((x :: s).take w :: done) ((x :: s).drop w)
termination_by s => s.length
decreasing_by
  simp only [List.length_drop, List.length_cons]
  omega

def chunks (w : Nat) (s : List β) : List (List β) := chunksFrom w [] s

theorem chunksFrom_nil (w : Nat) (done : List (List β)) :
    chunksFrom w done ([] : List β) = done.reverse := by
  rw [chunksFrom]

theorem chunksFrom_step {w : Nat} (hw : w ≠ 0) {s : List β} (hs : s ≠ [])
    (done : List (List β)) :
    chunksFrom w done s = chunksFrom w (s.take w :: done) (s.drop w) := by
  cases s with
  | nil => exact absurd rfl hs
  | cons x s => rw [chunksFrom, dif_neg hw]

theorem chunksFrom_eq {w : Nat} (hw : w ≠ 0) (n : Nat) (s : List β) (hn : s.length ≤ n)
    (done : List (List β)) : chunksFrom w done s = done.reverse ++ chunksFrom w [] s := by
  induction n generalizing s done with
  | zero =>
    have hs : s = [] := List.length_eq_zero_iff.mp (by omega)
    simp [hs, chunksFrom_nil]
  | succ n ih =>
    by_cases hs : s = []
    · simp [hs, chunksFrom_nil]
    · have hpos : 0 < s.length := List.length_pos_iff.mpr hs
      have hd : (s.drop w).length ≤ n := by
        simp only [List.length_drop]
        omega
      rw [chunksFrom_step hw hs, ih _ hd, chunksFrom_step hw hs [], ih _ hd [s.take w]]
      simp

theorem chunks_nil (w : Nat) : chunks w ([] : List β) = [] := chunksFrom_nil w []

/-- The first piece, and the pieces of what is left. -/
theorem chunks_eq_cons {w : Nat} (hw : w ≠ 0) {s : List β} (hs : s ≠ []) :
    chunks w s = s.take w :: chunks w (s.drop w) := by
  rw [chunks, chunksFrom_step hw hs, chunksFrom_eq hw _ _ (Nat.le_refl _)]
  rfl

end Radioplay.Sound
