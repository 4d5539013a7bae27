import Radioplay.Energy.Squares
import Radioplay.Proofs.Rational

/-! Sums of squares over the rationals. Nothing is rounded, so neither the lanes nor the halves show
in a sum. -/

namespace Radioplay

namespace Sound

variable {β : Type}

theorem chunks_flatten {w : ℕ} (hw : w ≠ 0) (s : List β) : (chunks w s).flatten = s := by
  induction hn : s.length using Nat.strong_induction_on generalizing s with
  | _ n ih =>
    by_cases hs : s = []
    · rw [hs, chunks_nil, List.flatten_nil]
    · have hPositive : 0 < s.length := List.length_pos_iff.mpr hs
      have hShorter : (s.drop w).length < n := by
        rw [List.length_drop]
        omega
      rw [chunks_eq_cons hw hs, List.flatten_cons, ih _ hShorter _ rfl, List.take_append_drop]

end Sound

namespace Energy

open Quantity

theorem sumFrom_rat (start : ℚ) (xs : List ℚ) : sumFrom start xs = .ok (start + xs.sum) := by
  induction xs generalizing start with
  | nil => rw [sumFrom, List.sum_nil, add_zero]
  | cons x xs ih =>
    rw [sumFrom, add_rat, ok_bind, ih, List.sum_cons, add_assoc]

theorem addRow_rat (xs ys : List ℚ) :
    ∃ zs, addRow xs ys = .ok zs ∧ zs.sum = xs.sum + ys.sum := by
  induction xs, ys using addRow.induct with
  | case1 ys => exact ⟨ys, by rw [addRow], by rw [List.sum_nil, zero_add]⟩
  | case2 xs hNone => exact ⟨xs, by rw [addRow]; exact hNone, by rw [List.sum_nil, add_zero]⟩
  | case3 x xs y ys ih =>
    obtain ⟨zs, hRow, hSum⟩ := ih
    refine ⟨(x + y) :: zs, ?_, ?_⟩
    · rw [addRow, add_rat, ok_bind, hRow]
      rfl
    · rw [List.sum_cons, List.sum_cons, List.sum_cons, hSum, add_add_add_comm]

theorem addRows_rat (row : List ℚ) (rows : List (List ℚ)) :
    ∃ zs, addRows row rows = .ok zs ∧ zs.sum = row.sum + rows.flatten.sum := by
  induction rows generalizing row with
  | nil => exact ⟨row, rfl, by rw [List.flatten_nil, List.sum_nil, add_zero]⟩
  | cons next rows ih =>
    obtain ⟨sums, hRow, hSums⟩ := addRow_rat row next
    obtain ⟨zs, hRows, hSum⟩ := ih sums
    refine ⟨zs, ?_, ?_⟩
    · rw [addRows, hRow, ok_bind, hRows]
    · rw [hSum, hSums, List.flatten_cons, List.sum_append, add_assoc]

theorem addPairs_rat (xs : List ℚ) : ∃ zs, addPairs xs = .ok zs ∧ zs.sum = xs.sum := by
  induction xs using addPairs.induct with
  | case1 x y rest ih =>
    obtain ⟨zs, hRest, hSum⟩ := ih
    refine ⟨(x + y) :: zs, ?_, ?_⟩
    · rw [addPairs, add_rat, ok_bind, hRest]
      rfl
    · rw [List.sum_cons, List.sum_cons, List.sum_cons, hSum, add_assoc]
  | case2 xs hShort => exact ⟨xs, by rw [addPairs]; exact hShort, rfl⟩

theorem sumBlock_rat (xs : List ℚ) : sumBlock xs = .ok xs.sum := by
  obtain ⟨row, hRow, hRowSum⟩ :=
    addRows_rat [] (Sound.chunks lanes (xs.take (xs.length - xs.length % lanes)))
  obtain ⟨fours, hFours, hFoursSum⟩ := addPairs_rat row
  obtain ⟨twos, hTwos, hTwosSum⟩ := addPairs_rat fours
  obtain ⟨sum, hPairs, hSum⟩ := addPairs_rat twos
  have hWhole : sum.sum = (xs.take (xs.length - xs.length % lanes)).sum := by
    rw [hSum, hTwosSum, hFoursSum, hRowSum, Sound.chunks_flatten (by decide), List.sum_nil,
      zero_add]
  simp only [sumBlock, hRow, hFours, hTwos, hPairs, ok_bind, sumFrom_rat, ratio_rat]
  rw [List.sum_append, hWhole, ← List.sum_append, List.take_append_drop]
  norm_num

theorem sum_rat (xs : List ℚ) : sum xs = .ok xs.sum := by
  induction xs using sum.induct with
  | case1 xs hShort => rw [sum, if_pos hShort, sumBlock_rat]
  | case2 xs hLong half ihFirst ihSecond =>
    have hHalves : sum xs =
        (sum (xs.take half) >>= fun x => sum (xs.drop half) >>= fun y => add x y) := by
      rw [sum, if_neg hLong]
    rw [hHalves, ihFirst, ok_bind, ihSecond, ok_bind, add_rat, ← List.sum_append,
      List.take_append_drop]

/-- Sums of squares are exact. -/
theorem sumSquares_rat (xs : List ℚ) : sumSquares xs = .ok (xs.map fun x => x * x).sum := by
  have hSquares : (xs.mapM fun x => mul x x : Except Fault (List ℚ)) =
      .ok (xs.map fun x => x * x) := List.mapM_pure
  rw [sumSquares, hSquares, ok_bind]
  split
  · rename_i hNone
    rw [hNone]
    simp
  · rename_i square hOne
    rw [hOne, List.sum_singleton]
    rfl
  · rename_i first rest _ hMore
    rw [hMore, sum_rat, ok_bind, add_rat, List.sum_cons]

end Energy

end Radioplay
