import Radioplay.Proofs.Window.Cut

/-! How far the stretch that is picked may lie from the one that was drawn, over the rationals. A
stretch is picked from any draw, and every bound on it holds at once. The reach bounds how far each
cut is moved, and a negative one moves neither. -/

namespace Radioplay.Window

open Quantity

/-- The start, moved on from a draw. -/
def startFrom (clip reach raw : ℚ) (points : List ℚ) : ℚ :=
  firstFrom raw (raw + reach) (points.filter fun p => le p (max 0 (clip - 1 / 10)))

/-- The end aimed at, moved back to a quiet point and into the clip. -/
def finishFrom (clip target reach start : ℚ) (points : List ℚ) : ℚ :=
  min (lastUpTo (start + target) (start + target - reach) (start + target) points) clip

/-- The length of a stretch to an end: not below the shortest one, but inside the clip. -/
def lengthTo (clip start finish : ℚ) : ℚ := min (max (1 / 10) (finish - start)) (clip - start)

section

variable {clip target reach raw start finish : ℚ}

theorem around_eq_ok {range : Value} (hRange : ofValue range = .ok reach) (clip target raw : ℚ)
    (points : List ℚ) :
    around clip target points raw range =
      .ok (startFrom clip reach raw points,
        lengthTo clip (startFrom clip reach raw points)
          (finishFrom clip target reach (startFrom clip reach raw points) points)) := by
  simp only [around, latestStart, snapAfter, snapBefore, shortest_rat, hRange, add_rat, sub_rat,
    ratio_rat, greater_rat, lesser_rat, Int.cast_zero, zero_div]
  rfl

/-! ## The start -/

theorem firstFrom_le {time last : ℚ} (h : time ≤ last) (points : List ℚ) :
    firstFrom time last points ≤ last := by
  induction points with
  | nil => exact h
  | cons p rest ih =>
    rw [firstFrom, lt_rat, le_rat]
    split
    · exact h
    · rename_i hPast
      split
      · exact not_lt.mp fun hLess => hPast (decide_eq_true hLess)
      · exact ih

theorem le_startFrom (clip reach raw : ℚ) (points : List ℚ) :
    raw ≤ startFrom clip reach raw points := by
  rcases firstFrom_mem raw (raw + reach) (points.filter fun p => le p (max 0 (clip - 1 / 10)))
    with hRaw | ⟨-, hLe⟩
  · exact hRaw.ge
  · exact hLe

theorem startFrom_le_latest (hRaw : raw ≤ max 0 (clip - 1 / 10)) (reach : ℚ) (points : List ℚ) :
    startFrom clip reach raw points ≤ max 0 (clip - 1 / 10) := by
  rcases firstFrom_mem raw (raw + reach) (points.filter fun p => le p (max 0 (clip - 1 / 10)))
    with hEq | ⟨hMem, -⟩
  · exact hEq.trans_le hRaw
  · exact of_decide_eq_true (List.mem_filter.mp hMem).2

theorem startFrom_le_reach (hReach : 0 ≤ reach) (clip raw : ℚ) (points : List ℚ) :
    startFrom clip reach raw points ≤ raw + reach :=
  firstFrom_le (by linarith) _

/-! ## The end -/

theorem le_lastUpTo {time first best : ℚ} (hBest : first ≤ best) (points : List ℚ) :
    first ≤ lastUpTo time first best points := by
  induction points generalizing best with
  | nil => exact hBest
  | cons p rest ih =>
    rw [lastUpTo, lt_rat, le_rat]
    split
    · exact hBest
    · apply ih
      split
      · rename_i hReached
        exact of_decide_eq_true hReached
      · exact hBest

theorem finishFrom_le_clip (clip target reach start : ℚ) (points : List ℚ) :
    finishFrom clip target reach start points ≤ clip :=
  min_le_right _ _

theorem finishFrom_le_aim (clip target reach start : ℚ) (points : List ℚ) :
    finishFrom clip target reach start points ≤ start + target :=
  (min_le_left _ _).trans (lastUpTo_le le_rfl _ points)

theorem le_finishFrom (hReach : 0 ≤ reach) (clip target start : ℚ) (points : List ℚ) :
    min clip (start + target - reach) ≤ finishFrom clip target reach start points := by
  rw [min_comm]
  exact min_le_min_right clip (le_lastUpTo (by linarith) points)

/-! ## The length -/

theorem add_lengthTo_le (clip start finish : ℚ) : start + lengthTo clip start finish ≤ clip := by
  have hRoom : lengthTo clip start finish ≤ clip - start := min_le_right _ _
  linarith

/-- From a start that leaves room for the shortest stretch, the stretch is no shorter, or it is the
whole of a shorter clip. -/
theorem le_lengthTo (hStart : start ≤ max 0 (clip - 1 / 10)) (finish : ℚ) :
    min (1 / 10) clip ≤ lengthTo clip start finish := by
  apply le_min ((min_le_left _ _).trans (le_max_left _ _))
  rcases le_max_iff.mp hStart with hFirst | hLatest
  · linarith [min_le_right (1 / 10) clip]
  · linarith [min_le_left (1 / 10) clip]

theorem lengthTo_le (hFinish : finish ≤ start + target) (clip : ℚ) :
    lengthTo clip start finish ≤ max (1 / 10) target :=
  (min_le_left _ _).trans (max_le_max_left _ (by linarith))

theorem le_add_lengthTo (hFinish : finish ≤ clip) (start : ℚ) :
    finish ≤ start + lengthTo clip start finish := by
  have hLength : finish - start ≤ lengthTo clip start finish :=
    le_min (le_max_right _ _) (by linarith)
  linarith

theorem lengthTo_of_short (hClip : clip ≤ 1 / 10) (finish : ℚ) : lengthTo clip 0 finish = clip := by
  rw [lengthTo, sub_zero, sub_zero]
  exact min_eq_right (hClip.trans (le_max_left _ _))

end

/-! ## All the bounds -/

/-- A stretch lies inside a clip and keeps to the shortest length and the length aimed at. It starts
no earlier than it was drawn, and the reach bounds how far each end is moved. -/
structure Bounded (clip target reach raw start length : ℚ) : Prop where
  raw_le : raw ≤ start
  start_le : start ≤ max 0 (clip - 1 / 10)
  finish_le : start + length ≤ clip
  le_length : min (1 / 10) clip ≤ length
  length_le : length ≤ max (1 / 10) target
  whole_of_short : clip ≤ 1 / 10 → start = 0 ∧ length = clip
  start_near : 0 ≤ reach → start ≤ raw + reach
  finish_near : 0 ≤ reach → min clip (start + target - reach) ≤ start + length

/-- The start that a fraction `u` of the range picks. -/
def drawnAt (clip target u : ℚ) : ℚ := u * max 0 (clip - max target (1 / 10))

variable {reach u : ℚ} {range : Value}

theorem drawnAt_nonneg (hu : 0 ≤ u) (clip target : ℚ) : 0 ≤ drawnAt clip target u :=
  mul_nonneg hu (le_max_left _ _)

theorem drawnAt_le (hu : u < 1) (clip target : ℚ) :
    drawnAt clip target u ≤ max 0 (clip - 1 / 10) :=
  calc drawnAt clip target u ≤ max 0 (clip - max target (1 / 10)) :=
        mul_le_of_le_one_left (le_max_left _ _) hu.le
    _ ≤ max 0 (clip - 1 / 10) := max_le_max_left _ (sub_le_sub_left (le_max_right _ _) clip)

theorem around_bounded (hRange : ofValue range = .ok reach) (hu : 0 ≤ u) (hOne : u < 1)
    (clip target : ℚ) (points : List ℚ) :
    ∃ start length,
      around clip target points (drawnAt clip target u) range = .ok (start, length) ∧
      Bounded clip target reach (drawnAt clip target u) start length := by
  have hDrawn := drawnAt_nonneg hu clip target
  have hRoom := drawnAt_le hOne clip target
  generalize drawnAt clip target u = raw at hDrawn hRoom ⊢
  refine ⟨_, _, around_eq_ok hRange clip target raw points, ?_⟩
  have hRaw := le_startFrom clip reach raw points
  have hLatest := startFrom_le_latest hRoom reach points
  have hNear : 0 ≤ reach → startFrom clip reach raw points ≤ raw + reach :=
    fun hReach => startFrom_le_reach hReach clip raw points
  -- What is left is a start with these bounds, wherever it came from.
  generalize startFrom clip reach raw points = start at hRaw hLatest hNear ⊢
  exact
    { raw_le := hRaw
      start_le := hLatest
      finish_le := add_lengthTo_le _ _ _
      le_length := le_lengthTo hLatest _
      length_le := lengthTo_le (finishFrom_le_aim _ _ _ _ _) clip
      whole_of_short := by
        intro hShort
        rw [max_eq_left (by linarith)] at hLatest
        obtain rfl : start = 0 := le_antisymm hLatest (hDrawn.trans hRaw)
        exact ⟨rfl, lengthTo_of_short hShort _⟩
      start_near := hNear
      finish_near := fun hReach => (le_finishFrom hReach clip target start points).trans
        (le_add_lengthTo (finishFrom_le_clip _ _ _ _ _) start) }

/-- A stretch is picked around the start that one word draws. -/
theorem pick_eq_around (clip target : ℚ) (points : List ℚ) (g : Generator) (range : Value) :
    pick clip target points g range =
      (around clip target points (drawnAt clip target (g.next.1.toNat / 2 ^ 32)) range).map
        fun window => (window, g.next.2) := by
  simp only [pick, latestDraw, shortest_rat, sub_rat, greater_rat, ratio_rat, Int.cast_zero,
    zero_div, ok_bind, pure_bind, between_drawn]
  show (around clip target points (drawn clip target g.next.1) range >>= _) =
    (around clip target points (drawn clip target g.next.1) range).map _
  cases around clip target points (drawn clip target g.next.1) range with
  | error fault => rfl
  | ok window => rfl

theorem word_lt_one (m : UInt32) : (m.toNat / 2 ^ 32 : ℚ) < 1 := by
  rw [div_lt_one (by positivity)]
  exact_mod_cast m.toNat_lt

/-- Whatever is drawn, and whatever the points and their order, a stretch is picked within all the
bounds, by one draw. -/
theorem pick_bounded (hRange : ofValue range = .ok reach) (clip target : ℚ) (points : List ℚ) :
    (∀ u : ℚ, 0 ≤ u → u < 1 → ∃ start length,
      around clip target points (drawnAt clip target u) range = .ok (start, length) ∧
      Bounded clip target reach (drawnAt clip target u) start length) ∧
    ∀ g : Generator, ∃ u start length : ℚ, u = g.next.1.toNat / 2 ^ 32 ∧ 0 ≤ u ∧ u < 1 ∧
      around clip target points (drawnAt clip target u) range = .ok (start, length) ∧
      pick clip target points g range = .ok ((start, length), g.next.2) ∧
      Bounded clip target reach (drawnAt clip target u) start length := by
  refine ⟨fun u hu hOne => around_bounded hRange hu hOne clip target points, fun g => ?_⟩
  have hu : (0 : ℚ) ≤ g.next.1.toNat / 2 ^ 32 := by positivity
  obtain ⟨start, length, hAround, hBounded⟩ :=
    around_bounded hRange hu (word_lt_one g.next.1) clip target points
  refine ⟨_, start, length, rfl, hu, word_lt_one _, hAround, ?_, hBounded⟩
  rw [pick_eq_around, hAround]
  rfl

/-- A quiet point to which both ends would be moved leaves the shortest stretch. -/
theorem pick_bounded_collapse :
    (ofValue (.int 1) : Except Fault ℚ) = .ok 1 ∧
      around 2 (1 / 2) [9 / 10, 3, 1 / 2] (drawnAt 2 (1 / 2) (1 / 3)) (.int 1) =
        .ok ((9 / 10 : ℚ), (1 / 10 : ℚ)) ∧
      Bounded 2 (1 / 2) 1 (drawnAt 2 (1 / 2) (1 / 3)) (9 / 10) (1 / 10) := by
  have hRange : (ofValue (.int 1) : Except Fault ℚ) = .ok 1 := rfl
  have hAround : around 2 (1 / 2) [9 / 10, 3, 1 / 2] (drawnAt 2 (1 / 2) (1 / 3)) (.int 1) =
      .ok ((9 / 10 : ℚ), (1 / 10 : ℚ)) := by
    decide +kernel
  obtain ⟨start, length, hEq, hBounded⟩ :=
    (pick_bounded hRange 2 (1 / 2) [9 / 10, 3, 1 / 2]).1 (1 / 3) (by norm_num) (by norm_num)
  rw [hAround] at hEq
  cases hEq
  exact ⟨hRange, hAround, hBounded⟩

end Radioplay.Window
