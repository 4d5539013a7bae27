import Mathlib.Order.Bounds.Image
import Mathlib.Tactic.Linarith
import Radioplay.Proofs.Rational
import Radioplay.Window

/-! Where a time is moved to, over the rationals. On points in ascending order the two searches,
which leave off early from opposite sides, find the nearest point in reach, and either one is the
other seen in a mirror. -/

namespace Radioplay.Window

open Quantity

/-- The points from `first` to `last`, both ends included, in no order. -/
def within (points : List ℚ) (first last : ℚ) : Set ℚ := {p | p ∈ points ∧ first ≤ p ∧ p ≤ last}

/-- The first point in reach after a time, or the time itself if there is none. -/
def IsNearestAfter (time reach : ℚ) (points : List ℚ) (x : ℚ) : Prop :=
  IsLeast (within points time (time + reach)) x ∨
    within points time (time + reach) = ∅ ∧ x = time

/-- The last point in reach before a time, or the time itself if there is none. -/
def IsNearestBefore (time reach : ℚ) (points : List ℚ) (x : ℚ) : Prop :=
  IsGreatest (within points (time - reach) time) x ∨
    within points (time - reach) time = ∅ ∧ x = time

/-- Points seen from the other side of zero, in their order there. -/
def mirrored (points : List ℚ) : List ℚ := (points.map Neg.neg).reverse

variable {first last p : ℚ} {points : List ℚ}

/-! ## Points in reach -/

theorem within_nil (first last : ℚ) : within [] first last = ∅ := by
  ext q
  simp [within]

theorem within_cons_of_lt (h : p < first) (points : List ℚ) (last : ℚ) :
    within (p :: points) first last = within points first last := by
  ext q
  constructor
  · rintro ⟨hMem, hFirst, hLast⟩
    rcases List.mem_cons.mp hMem with rfl | hMem
    · exact absurd hFirst (not_le.mpr h)
    · exact ⟨hMem, hFirst, hLast⟩
  · rintro ⟨hMem, hIn⟩
    exact ⟨List.mem_cons_of_mem p hMem, hIn⟩

theorem within_cons_of_le (hFirst : first ≤ p) (hLast : p ≤ last) (points : List ℚ) :
    within (p :: points) first last = insert p (within points first last) := by
  ext q
  constructor
  · rintro ⟨hMem, hIn⟩
    exact (List.mem_cons.mp hMem).imp id fun hMem => ⟨hMem, hIn⟩
  · rintro (rfl | ⟨hMem, hIn⟩)
    · exact ⟨List.mem_cons_self, hFirst, hLast⟩
    · exact ⟨List.mem_cons_of_mem p hMem, hIn⟩

/-- No later point is in reach once a point is past it. -/
theorem within_cons_of_past (hOrder : (p :: points).Pairwise (· ≤ ·)) (h : last < p) (first : ℚ) :
    within (p :: points) first last = ∅ := by
  apply Set.eq_empty_of_forall_notMem
  rintro q ⟨hMem, -, hLast⟩
  rcases List.mem_cons.mp hMem with rfl | hMem
  · exact absurd hLast (not_le.mpr h)
  · have hLe : p ≤ q := (List.pairwise_cons.mp hOrder).1 q hMem
    linarith

/-! ## The two searches -/

theorem firstFrom_nearest (hOrder : points.Pairwise (· ≤ ·)) (time last : ℚ) :
    IsLeast (within points time last) (firstFrom time last points) ∨
      within points time last = ∅ ∧ firstFrom time last points = time := by
  induction points with
  | nil => exact .inr ⟨within_nil time last, rfl⟩
  | cons p rest ih =>
    obtain ⟨hHead, hRest⟩ := List.pairwise_cons.mp hOrder
    rw [firstFrom, lt_rat, le_rat]
    split
    · rename_i hPast
      exact .inr ⟨within_cons_of_past hOrder (of_decide_eq_true hPast) time, rfl⟩
    · rename_i hNotPast
      have hLast : p ≤ last := not_lt.mp fun h => hNotPast (decide_eq_true h)
      split
      · rename_i hReached
        rw [within_cons_of_le (of_decide_eq_true hReached) hLast]
        refine .inl ⟨Set.mem_insert p _, ?_⟩
        rintro q (rfl | ⟨hMem, -⟩)
        · exact le_rfl
        · exact hHead q hMem
      · rename_i hNotReached
        rw [within_cons_of_lt (not_le.mp fun h => hNotReached (decide_eq_true h))]
        exact ih hRest

/-- What the search has found so far is overtaken by any later point in reach. -/
theorem lastUpTo_nearest (hOrder : points.Pairwise (· ≤ ·)) (time first best : ℚ) :
    IsGreatest (within points first time) (lastUpTo time first best points) ∨
      within points first time = ∅ ∧ lastUpTo time first best points = best := by
  induction points generalizing best with
  | nil => exact .inr ⟨within_nil first time, rfl⟩
  | cons p rest ih =>
    obtain ⟨hHead, hRest⟩ := List.pairwise_cons.mp hOrder
    rw [lastUpTo, lt_rat, le_rat]
    split
    · rename_i hPast
      exact .inr ⟨within_cons_of_past hOrder (of_decide_eq_true hPast) first, rfl⟩
    · rename_i hNotPast
      have hLast : p ≤ time := not_lt.mp fun h => hNotPast (decide_eq_true h)
      split
      · rename_i hReached
        rw [within_cons_of_le (of_decide_eq_true hReached) hLast]
        left
        -- The rest is searched with this point as the best one, and it is below all of them.
        rcases ih hRest p with hGreatest | ⟨hNone, hEq⟩
        · have hLe : p ≤ lastUpTo time first p rest := hHead _ hGreatest.1.1
          have hInsert := hGreatest.insert p
          rwa [max_eq_right hLe] at hInsert
        · rw [hNone, hEq, insert_empty_eq]
          exact isGreatest_singleton
      · rename_i hNotReached
        rw [within_cons_of_lt (not_le.mp fun h => hNotReached (decide_eq_true h))]
        exact ih hRest best

theorem snapAfter_nearest (hOrder : points.Pairwise (· ≤ ·)) (time reach : ℚ) :
    ∃ x, snapAfter time points reach = .ok x ∧ IsNearestAfter time reach points x :=
  ⟨_, rfl, firstFrom_nearest hOrder time (time + reach)⟩

theorem snapBefore_nearest (hOrder : points.Pairwise (· ≤ ·)) (time reach : ℚ) :
    ∃ x, snapBefore time points reach = .ok x ∧ IsNearestBefore time reach points x :=
  ⟨_, rfl, lastUpTo_nearest hOrder time (time - reach) time⟩

/-! ## The mirror -/

theorem IsNearestAfter.unique {time reach x y : ℚ} (hx : IsNearestAfter time reach points x)
    (hy : IsNearestAfter time reach points y) : x = y := by
  rcases hx with hx | ⟨hNone, rfl⟩
  · rcases hy with hy | ⟨hNone, -⟩
    · exact hx.unique hy
    · exact absurd (hNone ▸ hx.1) (Set.notMem_empty x)
  · rcases hy with hy | ⟨-, rfl⟩
    · exact absurd (hNone ▸ hy.1) (Set.notMem_empty y)
    · rfl

theorem mirrored_ordered (hOrder : points.Pairwise (· ≤ ·)) :
    (mirrored points).Pairwise (· ≤ ·) := by
  rw [mirrored, List.pairwise_reverse, List.pairwise_map]
  exact hOrder.imp fun h => neg_le_neg h

theorem within_mirrored (points : List ℚ) (first last : ℚ) :
    within (mirrored points) (-last) (-first) = Neg.neg '' within points first last := by
  ext q
  constructor
  · rintro ⟨hMem, hLast, hFirst⟩
    obtain ⟨p, hp, rfl⟩ := List.mem_map.mp (List.mem_reverse.mp hMem)
    exact ⟨p, ⟨hp, neg_le_neg_iff.mp hFirst, neg_le_neg_iff.mp hLast⟩, rfl⟩
  · rintro ⟨p, ⟨hMem, hFirst, hLast⟩, rfl⟩
    have hMirror : -p ∈ mirrored points := List.mem_reverse.mpr (List.mem_map_of_mem hMem)
    exact ⟨hMirror, neg_le_neg hLast, neg_le_neg hFirst⟩

theorem IsNearestBefore.mirrored {time reach x : ℚ} (h : IsNearestBefore time reach points x) :
    IsNearestAfter (-time) reach (mirrored points) (-x) := by
  have hReach : -time + reach = -(time - reach) := by linarith
  rw [IsNearestAfter, hReach, within_mirrored]
  rcases h with hGreatest | ⟨hNone, rfl⟩
  · have hAntitone : Antitone (Neg.neg : ℚ → ℚ) := fun _ _ => neg_le_neg
    exact .inl (hAntitone.map_isGreatest hGreatest)
  · exact .inr ⟨by rw [hNone, Set.image_empty], rfl⟩

theorem snapBefore_eq_mirrored (hOrder : points.Pairwise (· ≤ ·)) (time reach : ℚ) :
    snapBefore time points reach =
      (snapAfter (-time) (mirrored points) reach).map Neg.neg := by
  obtain ⟨x, hBefore, hNearest⟩ := snapBefore_nearest hOrder time reach
  obtain ⟨y, hAfter, hMirrored⟩ := snapAfter_nearest (mirrored_ordered hOrder) (-time) reach
  have hEq : y = -x := hMirrored.unique hNearest.mirrored
  rw [hBefore, hAfter, hEq, Except.map, neg_neg]

/-- On points in ascending order snapping finds the nearest point in reach on its side, and never
fails; looking back is looking ahead in a mirror. -/
theorem snap_nearest (hOrder : points.Pairwise (· ≤ ·)) (time reach : ℚ) :
    (∃ x, snapAfter time points reach = .ok x ∧ IsNearestAfter time reach points x) ∧
      (∃ x, snapBefore time points reach = .ok x ∧ IsNearestBefore time reach points x) ∧
      snapBefore time points reach =
        (snapAfter (-time) (mirrored points) reach).map Neg.neg :=
  ⟨snapAfter_nearest hOrder time reach, snapBefore_nearest hOrder time reach,
    snapBefore_eq_mirrored hOrder time reach⟩

def hushes : List ℚ := [1 / 2, 9 / 10, 9 / 10, 2]

/-- The point found ahead is given twice and lies at the very end of the reach. -/
theorem hushes_nearest :
    hushes.Pairwise (· ≤ ·) ∧
      snapAfter (3 / 5) hushes (3 / 10) = .ok (9 / 10) ∧
      IsNearestAfter (3 / 5) (3 / 10) hushes (9 / 10) ∧
      snapBefore (3 / 5) hushes (3 / 10) = .ok (1 / 2) ∧
      IsNearestBefore (3 / 5) (3 / 10) hushes (1 / 2) ∧
      snapBefore (3 / 5) hushes (3 / 10) =
        (snapAfter (-(3 / 5)) (mirrored hushes) (3 / 10)).map Neg.neg := by
  have hOrder : hushes.Pairwise (· ≤ ·) := by decide +kernel
  have hAhead : snapAfter (3 / 5) hushes (3 / 10) = .ok (9 / 10) := by decide +kernel
  have hBack : snapBefore (3 / 5) hushes (3 / 10) = .ok (1 / 2) := by decide +kernel
  obtain ⟨⟨x, hx, hAfter⟩, ⟨y, hy, hBefore⟩, hMirror⟩ := snap_nearest hOrder (3 / 5) (3 / 10)
  rw [hAhead] at hx
  rw [hBack] at hy
  cases hx
  cases hy
  exact ⟨hOrder, hAhead, hAfter, hBack, hBefore, hMirror⟩

end Radioplay.Window
