import Radioplay.Proofs.Energy.Profile

/-! What a profile comes to, over the rationals. It depends on the number of samples in a window
alone: a window of none is refused, one that fits in a word of 64 bits gives the starts of the quiet
windows, and a longer one is a fault unless there are no samples. -/

namespace Radioplay

namespace Sound

variable {β : Type}

/-- A piece holds the samples from its start up to its end, or to that of the sequence. -/
theorem piece_eq_extract (w : ℕ) (s : List β) (k : ℕ) :
    piece w s k = s.extract (k * w) (min ((k + 1) * w) s.length) := by
  rw [piece, List.extract_eq_take_drop, List.take_eq_take_iff, List.length_drop, Nat.succ_mul]
  omega

end Sound

namespace Energy

open Quantity Sound

/-- The points of a profile are the starts of the windows of `w` samples whose root mean square is
below the threshold. They ascend within the clip, and no sample is left out or counted twice. -/
structure Profiled (rate threshold : ℚ) (w : ℕ) (samples points : List ℚ) : Prop where
  starts : ∃ numbers : List ℕ, points = numbers.map (fun k : ℕ => k * w / rate) ∧
    numbers.Pairwise (· < ·) ∧
    ∀ k, k ∈ numbers ↔ k * w < samples.length ∧
      rms (samples.extract (k * w) (min ((k + 1) * w) samples.length)) < threshold
  ascending : points.Pairwise (· < ·)
  within : ∀ x ∈ points, 0 ≤ x ∧ x < samples.length / rate
  counted : ∀ i < samples.length, ∃! k, k * w < samples.length ∧ k * w ≤ i ∧
    i < min ((k + 1) * w) samples.length

/-! ## The quiet windows -/

variable {r ms θ : ℚ} {w : ℕ}

theorem quietWindows_ascending (w : ℕ) (samples : List ℚ) (threshold : ℚ) :
    (quietWindows w samples threshold).Pairwise (· < ·) :=
  List.pairwise_lt_range.filter _

theorem windowStart_strictMono (hRate : 0 < r) (hw : 0 < w) : StrictMono (windowStart r w) := by
  intro i j hLess
  have hWidth : (0 : ℚ) < w := by exact_mod_cast hw
  have hIndex : (i : ℚ) < j := by exact_mod_cast hLess
  exact div_lt_div_of_pos_right (mul_lt_mul_of_pos_right hIndex hWidth) hRate

/-- A sample is in the window of its position's quotient, and in no other. -/
theorem window_unique (hw : 0 < w) {n i : ℕ} (hi : i < n) :
    ∃! k, k * w < n ∧ k * w ≤ i ∧ i < min ((k + 1) * w) n := by
  have hLow : i / w * w ≤ i := Nat.div_mul_le_self i w
  have hHigh : i < (i / w + 1) * w := Nat.lt_mul_of_div_lt (Nat.lt_succ_self _) hw
  refine ⟨i / w, ⟨by omega, hLow, lt_min hHigh hi⟩, ?_⟩
  rintro k ⟨-, hStart, hEnd⟩
  exact (Nat.div_eq_of_lt_le hStart (lt_min_iff.mp hEnd).1).symm

theorem quietWindows_profiled (hRate : 0 < r) (hw : 0 < w) (samples : List ℚ) (threshold : ℚ) :
    Profiled r threshold w samples
      ((quietWindows w samples threshold).map (windowStart r w)) where
  starts := by
    refine ⟨_, rfl, quietWindows_ascending w samples threshold, fun k => ?_⟩
    rw [← piece_eq_extract]
    exact mem_quietWindows hw
  ascending := (quietWindows_ascending w samples threshold).map _ fun _ _ hLess =>
    windowStart_strictMono hRate hw hLess
  within := by
    intro x hx
    obtain ⟨k, hk, rfl⟩ := List.mem_map.mp hx
    have hStart : ((k * w : ℕ) : ℚ) < samples.length :=
      Nat.cast_lt.mpr ((mem_quietWindows hw).mp hk).1
    rw [windowStart, ← Nat.cast_mul]
    exact ⟨by positivity, div_lt_div_of_pos_right hStart hRate⟩
  counted := fun _ hi => window_unique hw hi

/-! ## The outcome -/

section

variable {rate windowMs threshold : Value}

theorem windowLength_eq_ok (hRate : ofValue rate = .ok r) (hWindow : ofValue windowMs = .ok ms) :
    windowLength (α := ℚ) rate windowMs = .ok ⌊r * ms / 1000⌋ := by
  have hThousand : ((1000 : ℤ) : ℚ) ≠ 0 := by norm_num
  rw [windowLength, hRate, hWindow, ok_bind, ok_bind, mul_rat, ok_bind, ofInt_rat,
    div_rat hThousand, ok_bind, floor_rat]
  norm_num
  rfl

theorem profile_tooSmall (hRate : ofValue rate = .ok r) (hWindow : ofValue windowMs = .ok ms)
    (hSmall : ⌊r * ms / 1000⌋ ≤ 0) (samples : List ℚ) (threshold : Value) :
    profile samples rate windowMs threshold =
      .error (.windowTooSmall (settingText windowMs) (settingText rate)) := by
  rw [profile, windowLength_eq_ok hRate hWindow, ok_bind, if_pos hSmall]
  rfl

/-- A window too long to be counted in a word is a fault where there are samples. -/
theorem profile_tooLong (hRate : ofValue rate = .ok r) (hWindow : ofValue windowMs = .ok ms)
    (hLong : windowLimit ≤ ⌊r * ms / 1000⌋) {samples : List ℚ} (hSamples : samples ≠ [])
    (threshold : Value) : profile samples rate windowMs threshold = .error .wrongKind := by
  have hPositive : ¬ ⌊r * ms / 1000⌋ ≤ 0 := by
    rw [windowLimit] at hLong
    omega
  rw [profile, windowLength_eq_ok hRate hWindow, ok_bind, if_neg hPositive,
    if_neg (by rwa [List.isEmpty_iff]), if_pos hLong]
  rfl

theorem profile_eq_ok (hRate : ofValue rate = .ok r) (hWindow : ofValue windowMs = .ok ms)
    (hThreshold : ofValue threshold = .ok θ) (hw : 0 < w) (hFloor : ⌊r * ms / 1000⌋ = w)
    {samples : List ℚ} (hFits : samples = [] ∨ (w : ℤ) < windowLimit) :
    profile samples rate windowMs threshold =
      .ok ((quietWindows w samples θ).map (windowStart r w)) := by
  have hRateNe : r ≠ 0 := by
    rintro rfl
    rw [zero_mul, zero_div, Int.floor_zero] at hFloor
    omega
  rw [profile, windowLength_eq_ok hRate hWindow, ok_bind, hFloor, if_neg (by omega)]
  split
  · rename_i hEmpty
    rw [List.isEmpty_iff.mp hEmpty]
    rfl
  · rename_i hSome
    have hShort := hFits.resolve_left fun hEmpty => hSome (List.isEmpty_iff.mpr hEmpty)
    simp only [if_neg (not_le.mpr hShort), Int.toNat_natCast, limits_number hThreshold, hRate,
      ok_bind]
    exact lowStarts_chunks hRateNe hw samples θ

/-- A profile of windows of at least one sample holds the starts of the quiet ones, just if there
are no samples or the window fits in a word. -/
theorem profile_outcome (hRate : ofValue rate = .ok r) (hPositive : 0 < r)
    (hWindow : ofValue windowMs = .ok ms) (hThreshold : ofValue threshold = .ok θ)
    (samples : List ℚ) :
    (⌊r * ms / 1000⌋ ≤ 0 → profile samples rate windowMs threshold =
      .error (.windowTooSmall (settingText windowMs) (settingText rate))) ∧
    (∀ w : ℕ, 0 < w → ⌊r * ms / 1000⌋ = w → (samples = [] ∨ (w : ℤ) < windowLimit) →
      ∃ points, profile samples rate windowMs threshold = .ok points ∧
        Profiled r θ w samples points) ∧
    (windowLimit ≤ ⌊r * ms / 1000⌋ → samples ≠ [] →
      profile samples rate windowMs threshold = .error .wrongKind) := by
  refine ⟨fun hSmall => profile_tooSmall hRate hWindow hSmall samples threshold, ?_,
    fun hLong hSamples => profile_tooLong hRate hWindow hLong hSamples threshold⟩
  intro w hw hFloor hFits
  exact ⟨_, profile_eq_ok hRate hWindow hThreshold hw hFloor hFits,
    quietWindows_profiled hPositive hw samples θ⟩

/-- Five samples in windows of two: the second window is quiet, and the last has one sample. -/
theorem profile_outcome_partial :
    (0 : ℚ) < 1000 ∧ ⌊(1000 * 2 / 1000 : ℚ)⌋ = (2 : ℕ) ∧
      profile [2, 2, 0, 0, (3 : ℚ)] (.int 1000) (.int 2) (.int 1) = .ok [1 / 500] ∧
      Profiled 1000 1 2 [2, 2, 0, 0, 3] [1 / 500] := by
  have hFloor : ⌊(1000 * 2 / 1000 : ℚ)⌋ = (2 : ℕ) := by norm_num
  have hPoints : profile [2, 2, 0, 0, (3 : ℚ)] (.int 1000) (.int 2) (.int 1) = .ok [1 / 500] := by
    decide +kernel
  have hRate : (ofValue (.int 1000) : Except Fault ℚ) = .ok 1000 := rfl
  have hWindow : (ofValue (.int 2) : Except Fault ℚ) = .ok 2 := rfl
  have hThreshold : (ofValue (.int 1) : Except Fault ℚ) = .ok 1 := rfl
  obtain ⟨points, hEq, hProfiled⟩ :=
    (profile_outcome hRate (by norm_num) hWindow hThreshold [2, 2, 0, 0, 3]).2.1 2 (by norm_num)
      hFloor (.inr (by decide))
  rw [hPoints] at hEq
  cases hEq
  exact ⟨by norm_num, hFloor, hPoints, hProfiled⟩

/-- A window of 2 ^ 63 samples is a fault for a clip of one sample, which it would hold. -/
theorem profile_wrongKind :
    ⌊(1000 * (2 ^ 63 : ℤ) / 1000 : ℚ)⌋ = (2 ^ 63 : ℕ) ∧
      profile [(0 : ℚ)] (.int 1000) (.int (2 ^ 63)) (.int 1) = .error .wrongKind ∧
      ¬ ∃ points, profile [(0 : ℚ)] (.int 1000) (.int (2 ^ 63)) (.int 1) = .ok points := by
  have hFault : profile [(0 : ℚ)] (.int 1000) (.int (2 ^ 63)) (.int 1) = .error .wrongKind := by
    decide +kernel
  refine ⟨by norm_num, hFault, ?_⟩
  rintro ⟨points, hPoints⟩
  rw [hFault] at hPoints
  cases hPoints

end

end Energy

end Radioplay
