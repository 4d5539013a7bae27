import Mathlib.Analysis.Real.Sqrt
import Mathlib.Data.Rat.Floor
import Radioplay.Energy
import Radioplay.Proofs.Energy.Squares

/-! The profile of a clip, over the rationals. Its points are the starts of exactly those windows
whose root mean square is below the threshold, in order. The root is a real number; a comparison of
squares decides it. -/

namespace Radioplay

namespace Sound

variable {β : Type}

/-- Piece `k` of `w` items, or of what is left. -/
def piece (w : ℕ) (s : List β) (k : ℕ) : List β := (s.drop (k * w)).take w

theorem piece_succ (w : ℕ) (s : List β) (k : ℕ) : piece w s (k + 1) = piece w (s.drop w) k := by
  rw [piece, piece, List.drop_drop, Nat.succ_mul, Nat.add_comm]

theorem piece_ne_nil {w : ℕ} (hw : 0 < w) {s : List β} {k : ℕ} (hk : k * w < s.length) :
    piece w s k ≠ [] := by
  apply List.ne_nil_of_length_pos
  rw [piece, List.length_take, List.length_drop]
  omega

/-- The pieces of a sequence are those that start before its end. -/
theorem chunks_length {w : ℕ} (hw : 0 < w) (s : List β) (k : ℕ) :
    k < (chunks w s).length ↔ k * w < s.length := by
  induction hn : s.length using Nat.strong_induction_on generalizing s k with
  | _ n ih =>
    cases s with
    | nil => simp [← hn, chunks_nil]
    | cons x s =>
      rw [chunks_eq_cons (by omega) (by simp), List.length_cons]
      cases k with
      | zero =>
        simp only [List.length_cons] at hn
        simp only [Nat.zero_mul]
        omega
      | succ k =>
        have hDrop : ((x :: s).drop w).length = n - w := by rw [List.length_drop, hn]
        have hPos : 0 < n := by rw [← hn]; simp
        rw [Nat.add_lt_add_iff_right, ih (n - w) (by omega) _ k hDrop, Nat.succ_mul]
        omega

theorem chunks_eq_map {w : ℕ} (hw : 0 < w) (s : List β) :
    chunks w s = (List.range (chunks w s).length).map (piece w s) := by
  induction hn : s.length using Nat.strong_induction_on generalizing s with
  | _ n ih =>
    cases s with
    | nil => simp [chunks_nil]
    | cons x s =>
      have hDrop : ((x :: s).drop w).length = n - w := by rw [List.length_drop, hn]
      have hPos : 0 < n := by rw [← hn]; simp
      rw [chunks_eq_cons (by omega) (by simp), List.length_cons, List.range_succ_eq_map,
        List.map_cons, List.map_map]
      refine congrArg₂ List.cons ?_ ((ih (n - w) (by omega) _ hDrop).trans ?_)
      · rw [piece, Nat.zero_mul, List.drop_zero]
      · exact List.map_congr_left fun k _ => (piece_succ w (x :: s) k).symm

end Sound

namespace Energy

open Quantity Sound

/-- The root mean square of a window. -/
noncomputable def rms (window : List ℚ) : ℝ :=
  √(((window.map fun x => x * x).sum / window.length : ℚ) : ℝ)

def isBelow (threshold : ℚ) (window : List ℚ) : Bool :=
  decide (0 < threshold ∧
    (window.map fun x => x * x).sum < threshold * threshold * window.length)

/-- Squares decide whether a window's root mean square is below a threshold. -/
theorem isBelow_iff {window : List ℚ} (hWindow : window ≠ []) (threshold : ℚ) :
    isBelow threshold window = true ↔ rms window < threshold := by
  have hLength : (0 : ℚ) < window.length := by
    exact_mod_cast List.length_pos_iff.mpr hWindow
  rw [isBelow, decide_eq_true_iff, rms]
  by_cases hPositive : 0 < threshold
  · have hReal : (0 : ℝ) < threshold := by exact_mod_cast hPositive
    rw [Real.sqrt_lt' hReal, ← Rat.cast_pow, Rat.cast_lt, div_lt_iff₀ hLength, sq]
    exact and_iff_right hPositive
  · have hReal : (threshold : ℝ) ≤ 0 := by exact_mod_cast not_lt.mp hPositive
    apply iff_of_false
    · intro h
      exact hPositive h.1
    · exact not_lt.mpr (hReal.trans (Real.sqrt_nonneg _))

theorem isLow_rat (window : List ℚ) (threshold : ℚ) :
    isLow window threshold = .ok (isBelow threshold window) := by
  rw [isLow, sumSquares_rat, ok_bind]
  rfl

def windowStart (rate : ℚ) (w k : ℕ) : ℚ := k * w / rate

/-- The numbers of the windows that are below a threshold, in order. -/
def quietWindows (w : ℕ) (samples : List ℚ) (threshold : ℚ) : List ℕ :=
  (List.range samples.length).filter fun k =>
    decide (k * w < samples.length) && isBelow threshold (piece w samples k)

theorem mem_quietWindows {w : ℕ} (hw : 0 < w) {samples : List ℚ} {threshold : ℚ} {k : ℕ} :
    k ∈ quietWindows w samples threshold ↔
      k * w < samples.length ∧ rms (piece w samples k) < threshold := by
  rw [quietWindows, List.mem_filter, List.mem_range, Bool.and_eq_true, decide_eq_true_iff]
  constructor
  · rintro ⟨-, hStart, hBelow⟩
    exact ⟨hStart, (isBelow_iff (piece_ne_nil hw hStart) threshold).mp hBelow⟩
  · rintro ⟨hStart, hBelow⟩
    have hLe : k ≤ k * w := Nat.le_mul_of_pos_right k hw
    exact ⟨by omega, hStart, (isBelow_iff (piece_ne_nil hw hStart) threshold).mpr hBelow⟩

theorem quietWindows_eq {w : ℕ} (hw : 0 < w) (samples : List ℚ) (threshold : ℚ) :
    quietWindows w samples threshold = (List.range (chunks w samples).length).filter fun k =>
      isBelow threshold (piece w samples k) := by
  have hCount : (chunks w samples).length ≤ samples.length := by
    by_contra hMore
    have hStart := (chunks_length hw samples samples.length).mp (by omega)
    have hLe : samples.length ≤ samples.length * w := Nat.le_mul_of_pos_right _ hw
    omega
  have hSplit : List.range samples.length = List.range (chunks w samples).length ++
      (List.range (samples.length - (chunks w samples).length)).map
        fun i => (chunks w samples).length + i := by
    rw [← List.range_add]
    congr 1
    omega
  have hPast : ((List.range (samples.length - (chunks w samples).length)).map
      fun i => (chunks w samples).length + i).filter (fun k =>
        decide (k * w < samples.length) && isBelow threshold (piece w samples k)) = [] := by
    apply List.filter_eq_nil_iff.mpr
    intro k hk
    obtain ⟨i, -, rfl⟩ := List.mem_map.mp hk
    have hNot := (chunks_length hw samples ((chunks w samples).length + i)).not.mp (by omega)
    simp [hNot]
  rw [quietWindows, hSplit, List.filter_append, hPast, List.append_nil]
  apply List.filter_congr
  intro k hk
  have hStart := (chunks_length hw samples k).mp (List.mem_range.mp hk)
  rw [decide_eq_true hStart, Bool.true_and]

theorem lowStarts_rat {rate : ℚ} (hRate : rate ≠ 0) (w : ℕ) (threshold : ℚ)
    (windows : List (List ℚ)) (k : ℕ) :
    lowStarts rate w k (windows.map fun window => (window, threshold)) =
      .ok (((windows.zipIdx k).filter fun p => isBelow threshold p.1).map fun p =>
        windowStart rate w p.2) := by
  induction windows generalizing k with
  | nil => rfl
  | cons window rest ih =>
    have hStart : div (ratio (k * w : ℕ) 1) rate = .ok (windowStart rate w k) := by
      rw [ratio_rat, div_rat hRate, windowStart]
      push_cast
      rw [div_one]
    rw [List.map_cons, lowStarts, isLow_rat, ih (k + 1), ok_bind, ok_bind, List.zipIdx_cons]
    split
    · rename_i hBelow
      rw [List.filter_cons_of_pos (by exact hBelow), List.map_cons, hStart, ok_bind]
      rfl
    · rename_i hBelow
      rw [List.filter_cons_of_neg (by exact hBelow)]
      rfl

theorem limits_number {threshold : Value} {θ : ℚ} (h : ofValue threshold = .ok θ) (n : ℕ) :
    limits threshold n = .ok (List.replicate n θ) := by
  have hLimit : limit threshold = .ok θ := by rw [limit, h]; rfl
  cases threshold with
  | arr vs => cases h
  | str s => cases h
  | _ => simp only [limits, hLimit]; rfl

theorem windowLength_rat {rate windowMs : Value} {r : ℚ} {length : ℤ} (hRate : ofValue rate = .ok r)
    (h : windowLength (α := ℚ) rate windowMs = .ok length) :
    ∃ ms : ℚ, ofValue windowMs = .ok ms ∧ ⌊r * ms / 1000⌋ = length := by
  have hThousand : ((1000 : ℤ) : ℚ) ≠ 0 := by norm_num
  simp only [windowLength, hRate, bind_eq_ok, mul_rat, ofInt_rat, div_rat hThousand, floor_rat,
    Except.ok.injEq, exists_eq_left'] at h
  obtain ⟨ms, hMs, hFloor⟩ := h
  exact ⟨ms, hMs, by rw [← hFloor]; norm_num; rfl⟩

theorem lowStarts_chunks {rate : ℚ} (hRate : rate ≠ 0) {w : ℕ} (hw : 0 < w) (samples : List ℚ)
    (threshold : ℚ) :
    lowStarts rate w 0 ((chunks w samples).zip
        (List.replicate (chunks w samples).length threshold)) =
      .ok ((quietWindows w samples threshold).map (windowStart rate w)) := by
  have hZip : (chunks w samples).zip (List.replicate (chunks w samples).length threshold) =
      (chunks w samples).map fun window => (window, threshold) :=
    List.ext_getElem (by simp) fun i _ _ => by simp
  have hNumbered : (chunks w samples).zipIdx =
      (List.range (chunks w samples).length).map fun k => (piece w samples k, k) := by
    conv_lhs => rw [chunks_eq_map hw samples]
    exact List.ext_getElem (by simp) fun i _ _ => by simp
  rw [hZip, lowStarts_rat hRate, hNumbered, quietWindows_eq hw, List.filter_map, List.map_map]
  rfl

/-- The points of a profile are the starts of the quiet windows, which have at least one sample. -/
theorem profile_rat {samples points : List ℚ} {rate windowMs threshold : Value} {r θ : ℚ}
    (hRate : ofValue rate = .ok r) (hThreshold : ofValue threshold = .ok θ)
    (h : profile samples rate windowMs threshold = .ok points) :
    ∃ (ms : ℚ) (w : ℕ), ofValue windowMs = .ok ms ∧ ⌊r * ms / 1000⌋ = w ∧ 0 < w ∧
      points = (quietWindows w samples θ).map (windowStart r w) := by
  unfold profile at h
  obtain ⟨length, hLength, h⟩ := bind_eq_ok.mp h
  obtain ⟨ms, hMs, hFloor⟩ := windowLength_rat hRate hLength
  split at h
  · cases h
  · rename_i hPositive
    have hToNat : ((length.toNat : ℕ) : ℤ) = length := Int.toNat_of_nonneg (by omega)
    have hRateNe : r ≠ 0 := by
      rintro rfl
      rw [zero_mul, zero_div, Int.floor_zero] at hFloor
      omega
    refine ⟨ms, length.toNat, hMs, by rw [hToNat]; exact hFloor, by omega, ?_⟩
    split at h
    · rename_i hEmpty
      rw [List.isEmpty_iff.mp hEmpty]
      exact (pure_eq_ok.mp h).symm
    · split at h
      · cases h
      · simp only [limits_number hThreshold, hRate, ok_bind] at h
        rw [lowStarts_chunks hRateNe (by omega)] at h
        exact (Except.ok.inj h).symm

end Energy

end Radioplay
