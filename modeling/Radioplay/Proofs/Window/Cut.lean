import Mathlib.Tactic.Linarith
import Mathlib.Tactic.Positivity
import Radioplay.Proofs.Rational
import Radioplay.Window

/-! Where a stretch of a clip is cut, over the rationals. Both cuts lie inside the clip. The first
is the draw or a quiet point, and the second is the end aimed at, a quiet point, the end of the
shortest stretch or the end of the clip. -/

namespace Radioplay.Window

open Quantity

theorem shortest_rat : (shortest : ℚ) = 1 / 10 := by
  rw [shortest, ratio_rat]
  norm_num

/-- A snap forward ends at a point from the time on, or stays. -/
theorem firstFrom_mem (time last : ℚ) (points : List ℚ) :
    firstFrom time last points = time ∨
      firstFrom time last points ∈ points ∧ time ≤ firstFrom time last points := by
  induction points with
  | nil => exact .inl rfl
  | cons p rest ih =>
    rw [firstFrom, lt_rat, le_rat]
    split
    · exact .inl rfl
    · split
      · rename_i hReached
        exact .inr ⟨List.mem_cons_self, of_decide_eq_true hReached⟩
      · exact ih.imp id fun h => ⟨List.mem_cons_of_mem p h.1, h.2⟩

theorem lastUpTo_mem (time first best : ℚ) (points : List ℚ) :
    lastUpTo time first best points = best ∨ lastUpTo time first best points ∈ points := by
  induction points generalizing best with
  | nil => exact .inl rfl
  | cons p rest ih =>
    rw [lastUpTo, lt_rat, le_rat]
    split
    · exact .inl rfl
    · rcases ih (if decide (first ≤ p) = true then p else best) with hBest | hMem
      · rw [hBest]
        split
        · exact .inr List.mem_cons_self
        · exact .inl rfl
      · exact .inr (List.mem_cons_of_mem p hMem)

theorem lastUpTo_le {time best : ℚ} (hBest : best ≤ time) (first : ℚ) (points : List ℚ) :
    lastUpTo time first best points ≤ time := by
  induction points generalizing best with
  | nil => exact hBest
  | cons p rest ih =>
    rw [lastUpTo, lt_rat, le_rat]
    split
    · exact hBest
    · rename_i hPast
      apply ih
      split
      · exact not_lt.mp fun h => hPast (decide_eq_true h)
      · exact hBest

/-- The start that the word `m` draws: its fraction of the range that leaves room for the length
aimed at. -/
def drawn (clip target : ℚ) (m : UInt32) : ℚ :=
  (m.toNat / 2 ^ 32 : ℚ) * max 0 (clip - max target (1 / 10))

theorem drawn_nonneg (clip target : ℚ) (m : UInt32) : 0 ≤ drawn clip target m :=
  mul_nonneg (by positivity) (le_max_left _ _)

theorem between_drawn (clip target : ℚ) (m : UInt32) :
    Generator.between (ofInt 0) (max 0 (clip - max target (1 / 10))) m =
      .ok (drawn clip target m) := by
  rw [Generator.between, ofInt_rat, Int.cast_zero, sub_rat, Generator.unit_rat]
  show Except.ok _ = _
  rw [drawn, sub_zero, zero_add]

theorem pick_around {clip target : ℚ} {points : List ℚ} {g g' : Generator} {range : Value}
    {window : ℚ × ℚ} (h : pick clip target points g range = .ok (window, g')) :
    around clip target points (drawn clip target g.next.1) range = .ok window := by
  simp only [pick, latestDraw, shortest_rat, sub_rat, greater_rat, ratio_rat, Int.cast_zero,
    zero_div, bind_eq_ok, pure_eq_ok, Except.ok.injEq, exists_eq_left'] at h
  obtain ⟨raw, hRaw, _, hAround, hEq⟩ := h
  rw [between_drawn] at hRaw
  cases hRaw
  rw [hAround, (Prod.mk.inj hEq).1]

theorem around_cuts {clip target raw start length : ℚ} {points : List ℚ} {range : Value}
    (h : around clip target points raw range = .ok (start, length)) :
    ∃ reach,
      start = firstFrom raw (raw + reach) (points.filter fun p => le p (max 0 (clip - 1 / 10))) ∧
      length = min (max (1 / 10) (min (lastUpTo (start + target) (start + target - reach)
        (start + target) points) clip - start)) (clip - start) := by
  simp only [around, latestStart, snapAfter, snapBefore, shortest_rat, bind_eq_ok, pure_eq_ok,
    add_rat, sub_rat, ratio_rat, greater_rat, lesser_rat, Int.cast_zero, zero_div,
    Except.ok.injEq, exists_eq_left', Prod.mk.injEq] at h
  obtain ⟨reach, -, rfl, rfl⟩ := h
  exact ⟨reach, rfl, rfl⟩

/-- A stretch from `start` to `finish` lies inside a clip, and both cuts are accounted for. -/
structure Cuts (clip target : ℚ) (points : List ℚ) (raw start finish : ℚ) : Prop where
  start_nonneg : 0 ≤ start
  finish_le : finish ≤ clip
  start_mem : start = raw ∨ start ∈ points
  finish_mem : finish = start + target ∨ finish ∈ points ∨ finish = start + 1 / 10 ∨ finish = clip

theorem around_start_mem {clip target raw start length : ℚ} {points : List ℚ} {range : Value}
    (h : around clip target points raw range = .ok (start, length)) :
    start = raw ∨ start ∈ points ∧ raw ≤ start := by
  obtain ⟨reach, hStart, -⟩ := around_cuts h
  rcases firstFrom_mem raw (raw + reach) (points.filter fun p => le p (max 0 (clip - 1 / 10)))
    with hRaw | ⟨hMem, hLe⟩
  · exact .inl (hStart.trans hRaw)
  · rw [← hStart] at hMem hLe
    exact .inr ⟨List.mem_of_mem_filter hMem, hLe⟩

theorem around_finish_mem {clip target raw start length : ℚ} {points : List ℚ} {range : Value}
    (h : around clip target points raw range = .ok (start, length)) :
    start + length = start + target ∨ start + length ∈ points ∨
      start + length = start + 1 / 10 ∨ start + length = clip := by
  obtain ⟨reach, -, hLength⟩ := around_cuts h
  have hQuiet := lastUpTo_mem (start + target) (start + target - reach) (start + target) points
  generalize lastUpTo (start + target) (start + target - reach) (start + target) points = quiet
    at hLength hQuiet
  -- The clamps leave the shortest stretch, the end of the clip or the end that was snapped to.
  rcases min_choice (max (1 / 10) (min quiet clip - start)) (clip - start) with hMin | hMin
  · rcases max_choice (1 / 10) (min quiet clip - start) with hMax | hMax
    · exact .inr (.inr (.inl (by rw [hLength, hMin, hMax])))
    · have hFinish : start + length = min quiet clip := by
        rw [hLength, hMin, hMax, add_sub_cancel]
      rcases min_choice quiet clip with hSnap | hSnap
      · rw [hFinish, hSnap]
        exact hQuiet.imp id .inl
      · exact .inr (.inr (.inr (hFinish.trans hSnap)))
  · exact .inr (.inr (.inr (by rw [hLength, hMin, add_sub_cancel])))

theorem pick_cuts {clip target start length : ℚ} {points : List ℚ} {g g' : Generator}
    {range : Value} (h : pick clip target points g range = .ok ((start, length), g')) :
    Cuts clip target points (drawn clip target g.next.1) start (start + length) := by
  have hAround := pick_around h
  have hRaw := drawn_nonneg clip target g.next.1
  obtain ⟨reach, -, hLength⟩ := around_cuts hAround
  have hRoom : length ≤ clip - start := hLength.trans_le (min_le_right _ _)
  have hStart := around_start_mem hAround
  refine ⟨?_, by linarith, hStart.imp id And.left, around_finish_mem hAround⟩
  rcases hStart with hEq | ⟨-, hLe⟩
  · rwa [hEq]
  · exact hRaw.trans hLe

/-- No stretch is longer than the length aimed at, but for the shortest one. -/
theorem pick_length_le {clip target start length : ℚ} {points : List ℚ} {g g' : Generator}
    {range : Value} (h : pick clip target points g range = .ok ((start, length), g')) :
    length ≤ max target (1 / 10) := by
  obtain ⟨reach, -, hLength⟩ := around_cuts (pick_around h)
  have hQuiet := lastUpTo_le (le_refl (start + target)) (start + target - reach) points
  generalize lastUpTo (start + target) (start + target - reach) (start + target) points = quiet
    at hLength hQuiet
  calc length ≤ max (1 / 10) (min quiet clip - start) := hLength.trans_le (min_le_left _ _)
    _ ≤ max (1 / 10) target := by
      apply max_le_max_left
      linarith [min_le_left quiet clip]
    _ = max target (1 / 10) := max_comm _ _

end Radioplay.Window
