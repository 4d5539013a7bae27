import Radioplay.Proofs.Number.Exact
import Radioplay.Sound.Clip

/-! The values of single words, over the rationals. A whole number is rounded to the value nearest
to it, and where two are as near to the one with the even significand; rounding passes no value of
a single word. -/

namespace Radioplay

namespace Binary64

/-! ### Quotients -/

/-- What is left over decides where a quotient is rounded to. -/
theorem quotientEven_cases (n d : ℕ) :
    quotientEven n d = n / d ∧ (2 * (n % d) < d ∨ 2 * (n % d) = d ∧ n / d % 2 = 0) ∨
      quotientEven n d = n / d + 1 ∧ (d < 2 * (n % d) ∨ 2 * (n % d) = d ∧ n / d % 2 = 1) := by
  have hParity := Nat.mod_two_eq_zero_or_one (n / d)
  simp only [quotientEven, Bool.or_eq_true, Bool.and_eq_true, decide_eq_true_eq, beq_iff_eq]
  split
  · left
    omega
  · right
    omega

/-- A multiple is the given one or at least a whole divisor away from it. -/
theorem multiple_cases (j k : ℤ) {d : ℤ} (hd : 0 < d) :
    k * d ≤ j * d - d ∨ k = j ∨ j * d + d ≤ k * d := by
  rcases lt_trichotomy k j with hLess | rfl | hGreater
  · have hMul := mul_le_mul_of_nonneg_right (show k + 1 ≤ j by omega) hd.le
    rw [add_mul, one_mul] at hMul
    exact .inl (by omega)
  · exact .inr (.inl rfl)
  · have hMul := mul_le_mul_of_nonneg_right (show j + 1 ≤ k by omega) hd.le
    rw [add_mul, one_mul] at hMul
    exact .inr (.inr hMul)

/-- No multiple is nearer than that of the rounded quotient, and another that is as near makes the
quotient even. -/
theorem quotientEven_nearest (n : ℕ) {d : ℕ} (hd : 0 < d) (k : ℤ) :
    |(n : ℤ) - quotientEven n d * d| ≤ |(n : ℤ) - k * d| ∧
      (|(n : ℤ) - k * d| = |(n : ℤ) - quotientEven n d * d| → k ≠ quotientEven n d →
        quotientEven n d % 2 = 0) := by
  have hRest : n % d < d := Nat.mod_lt n hd
  have hWhole : ((n / d : ℕ) : ℤ) * d + (n % d : ℕ) = n := by
    exact_mod_cast Nat.div_add_mod' n d
  have hApart := multiple_cases (n / d : ℕ) k (show (0 : ℤ) < d by omega)
  simp only [Int.abs_eq_natAbs]
  rcases quotientEven_cases n d with ⟨hQuotient, hLeft⟩ | ⟨hQuotient, hLeft⟩
  · rw [hQuotient]
    rcases hApart with hBelow | rfl | hAbove
    · omega
    · omega
    · omega
  · rw [hQuotient, Nat.cast_add, Nat.cast_one, add_mul, one_mul]
    rcases hApart with hBelow | rfl | hAbove
    · omega
    · omega
    · have hNext := multiple_cases ((n / d : ℕ) + 1) k (show (0 : ℤ) < d by omega)
      rw [add_mul, one_mul] at hNext
      omega

end Binary64

namespace Single

open Binary64

/-! ### Values -/

/-- A significand of at most 24 binary digits and an exponent, as a finite single word has them. All
digits are there unless the exponent is the least. -/
structure IsForm (m e : ℤ) : Prop where
  size : |m| < 2 ^ 24
  exponent_lower : -149 ≤ e
  exponent_upper : e ≤ 104
  full : 2 ^ 23 ≤ |m| ∨ e = -149

/-- The value of a finite single word. -/
def IsValue (x : ℚ) : Prop := ∃ m e : ℤ, IsForm m e ∧ x = m * 2 ^ e

/-- `y` is `x` rounded to a single word: no value is nearer, and where another is as near the
significand of `y` is even. -/
structure IsNearest (x y : ℚ) : Prop where
  isValue : IsValue y
  nearest : ∀ z, IsValue z → |x - y| ≤ |x - z|
  even : ∀ z, IsValue z → |x - z| = |x - y| → z ≠ y →
    ∃ m e : ℤ, IsForm m e ∧ Even m ∧ y = m * 2 ^ e

variable {x y z : ℚ} {m e : ℤ}

theorem IsForm.neg (h : IsForm m e) : IsForm (-m) e :=
  ⟨(abs_neg m).symm ▸ h.size, h.exponent_lower, h.exponent_upper, (abs_neg m).symm ▸ h.full⟩

/-- A word's value is less than the least power of two that has more digits. -/
theorem IsForm.abs_lt (h : IsForm m e) {t : ℤ} (ht : e + 24 ≤ t) : |(m : ℚ) * 2 ^ e| < 2 ^ t := by
  have hSize : |(m : ℚ)| < 2 ^ 24 := by exact_mod_cast h.size
  have hPower : (0 : ℚ) < 2 ^ e := zpow_pos two_pos e
  calc |(m : ℚ) * 2 ^ e| = |(m : ℚ)| * 2 ^ e := by rw [abs_mul, abs_of_pos hPower]
    _ < 2 ^ 24 * 2 ^ e := mul_lt_mul_of_pos_right hSize hPower
    _ = 2 ^ (e + 24) := by rw [zpow_add₀ two_ne_zero, mul_comm, zpow_ofNat]
    _ ≤ 2 ^ t := zpow_le_zpow_right₀ one_le_two ht

theorem IsValue.neg (h : IsValue x) : IsValue (-x) := by
  obtain ⟨m, e, hForm, rfl⟩ := h
  exact ⟨-m, e, hForm.neg, by push_cast; ring⟩

theorem isValue_two_pow {k : ℕ} (hk : k ≤ 127) : IsValue (2 ^ k) := by
  refine ⟨2 ^ 23, k - 23, ⟨by norm_num, by omega, by omega, .inl (by norm_num)⟩, ?_⟩
  rw [Int.cast_pow, Int.cast_ofNat, ← zpow_natCast, ← zpow_natCast, ← zpow_add₀ two_ne_zero]
  congr 1
  push_cast
  ring

/-- A value of a whole number or more stays one when it is divided by a power of two. -/
theorem IsValue.div_two_pow (h : IsValue x) {k : ℕ} (hk : k ≤ 126) (hx : x = 0 ∨ 1 ≤ |x|) :
    IsValue (x / 2 ^ k) := by
  rcases hx with rfl | hx
  · rw [zero_div]
    exact h
  · obtain ⟨m, e, hForm, rfl⟩ := h
    have hExponent : -24 < e := by
      by_contra hLow
      have hSmall := hForm.abs_lt (t := 0) (by omega)
      rw [zpow_zero] at hSmall
      exact absurd hx (not_le.mpr hSmall)
    have hLower := hForm.exponent_lower
    have hUpper := hForm.exponent_upper
    have hFull : 2 ^ 23 ≤ |m| := hForm.full.resolve_right (by omega)
    refine ⟨m, e - k, ⟨hForm.size, by omega, by omega, .inl hFull⟩, ?_⟩
    rw [zpow_sub₀ two_ne_zero, zpow_natCast, mul_div_assoc]

/-- A value is a multiple of a power of two, or below all that fill a significand from there. -/
theorem IsValue.multiple_or_lt (h : IsValue z) (k : ℕ) :
    (∃ j : ℤ, z = j * 2 ^ k) ∨ |z| < 2 ^ (k + 23) := by
  obtain ⟨m, e, hForm, rfl⟩ := h
  by_cases hExponent : (k : ℤ) ≤ e
  · refine .inl ⟨m * 2 ^ (e - k).toNat, ?_⟩
    have hSplit : (2 : ℚ) ^ e = 2 ^ (e - k).toNat * 2 ^ k := by
      rw [← zpow_natCast, ← zpow_natCast, ← zpow_add₀ two_ne_zero]
      congr 1
      omega
    rw [hSplit]
    push_cast
    ring
  · right
    have hLess := hForm.abs_lt (t := (k + 23 : ℕ)) (by omega)
    rwa [zpow_natCast] at hLess

/-- Among the values on one side of `x` those with smaller units are farther from it than the first
that fills a significand. -/
theorem IsValue.multiple_or_far (h : IsValue z) {k : ℕ} (hx : 2 ^ (k + 23) ≤ x) :
    (∃ j : ℤ, z = j * 2 ^ k) ∨ |x - 2 ^ (k + 23)| < |x - z| := by
  refine (h.multiple_or_lt k).imp id fun hLess => ?_
  have hBelow : z < 2 ^ (k + 23) := (le_abs_self z).trans_lt hLess
  calc |x - 2 ^ (k + 23)| = x - 2 ^ (k + 23) := abs_of_nonneg (sub_nonneg.mpr hx)
    _ < x - z := sub_lt_sub_left hBelow x
    _ ≤ |x - z| := le_abs_self _

/-! ### Rounding -/

/-- A value is rounded to itself. -/
theorem IsValue.isNearest_self (h : IsValue x) : IsNearest x x where
  isValue := h
  nearest z _ := by
    rw [sub_self, abs_zero]
    exact abs_nonneg _
  even z _ hTie hNe := by
    rw [sub_self, abs_zero, abs_eq_zero, sub_eq_zero] at hTie
    exact absurd hTie.symm hNe

theorem IsNearest.neg (h : IsNearest x y) : IsNearest (-x) (-y) := by
  have hMirror (z : ℚ) : |-x - z| = |x - -z| := by
    rw [← abs_neg]
    congr 1
    ring
  refine ⟨h.isValue.neg, fun z hz => ?_, fun z hz hTie hNe => ?_⟩
  · rw [hMirror, hMirror, neg_neg]
    exact h.nearest (-z) hz.neg
  · rw [hMirror, hMirror, neg_neg] at hTie
    obtain ⟨m, e, hForm, hEven, rfl⟩ :=
      h.even (-z) hz.neg hTie fun hEq => hNe (by rw [← hEq, neg_neg])
    exact ⟨-m, e, hForm.neg, hEven.neg, by push_cast; ring⟩

/-- Rounding passes no value. -/
theorem IsNearest.le (h : IsNearest x y) (hz : IsValue z) (hx : x ≤ z) : y ≤ z := by
  by_contra hPast
  have hNearest := h.nearest z hz
  rw [abs_of_nonpos (by linarith), abs_of_nonpos (by linarith)] at hNearest
  linarith

theorem IsNearest.ge (h : IsNearest x y) (hz : IsValue z) (hx : z ≤ x) : z ≤ y :=
  neg_le_neg_iff.mp (h.neg.le hz.neg (neg_le_neg hx))

/-! ### Whole numbers -/

theorem isValue_natCast {a : ℕ} (ha : a.log2 < 24) : IsValue a := by
  rcases eq_or_ne a 0 with rfl | hNe
  · exact ⟨0, -149, ⟨by norm_num, le_rfl, by norm_num, .inr rfl⟩, by simp⟩
  · obtain ⟨hFull, hSize⟩ := shift_bounds hNe (Nat.le_of_lt_succ ha)
    refine ⟨(a * 2 ^ (23 - a.log2) : ℕ), a.log2 - 23, ⟨?_, by omega, by omega, .inl ?_⟩, ?_⟩
    · rw [Nat.abs_cast]
      exact_mod_cast hSize
    · rw [Nat.abs_cast]
      exact_mod_cast hFull
    · have hExponent : ((a.log2 : ℤ) - 23) = -(23 - a.log2 : ℕ) := by omega
      rw [hExponent, zpow_neg, zpow_natCast]
      push_cast
      field_simp

/-- A significand that is rounded up to 25 binary digits has a form with the next exponent. -/
theorem exists_form {q k : ℕ} (hLower : 2 ^ 23 ≤ q) (hUpper : q ≤ 2 ^ 24) (hk : k ≤ 103) :
    ∃ m e : ℤ, IsForm m e ∧ (q % 2 = 0 → Even m) ∧ (q : ℚ) * 2 ^ k = m * 2 ^ e := by
  rcases hUpper.lt_or_eq with hLess | rfl
  · refine ⟨q, k, ⟨?_, by omega, by omega, .inl ?_⟩, fun hEven => ?_, ?_⟩
    · rw [Nat.abs_cast]
      exact_mod_cast hLess
    · rw [Nat.abs_cast]
      exact_mod_cast hLower
    · exact_mod_cast Nat.even_iff.mpr hEven
    · rw [zpow_natCast, Int.cast_natCast]
  · refine ⟨2 ^ 23, k + 1, ⟨by norm_num, by omega, by omega, .inl (by norm_num)⟩,
      fun _ => ⟨2 ^ 22, by norm_num⟩, ?_⟩
    rw [zpow_add_one₀ two_ne_zero, zpow_natCast]
    push_cast
    ring

/-- A quotient of 24 binary digits may have one more when it is rounded. -/
theorem quotientEven_bounds {a k : ℕ} (hLog : a.log2 = k + 23) :
    2 ^ 23 ≤ quotientEven a (2 ^ k) ∧ quotientEven a (2 ^ k) ≤ 2 ^ 24 := by
  have hNe : a ≠ 0 := by
    rintro rfl
    rw [Nat.log2_zero] at hLog
    omega
  have hLower : 2 ^ (k + 23) ≤ a := hLog ▸ Nat.log2_self_le hNe
  have hUpper : a < 2 ^ (k + 24) := (Nat.log2_lt hNe).mp (by omega)
  have hQuotientLower : 2 ^ 23 ≤ a / 2 ^ k := by
    rw [Nat.le_div_iff_mul_le (Nat.two_pow_pos k), ← pow_add, add_comm]
    exact hLower
  have hQuotientUpper : a / 2 ^ k < 2 ^ 24 := by
    rw [Nat.div_lt_iff_lt_mul (Nat.two_pow_pos k), ← pow_add, add_comm]
    exact hUpper
  rcases quotientEven_cases a (2 ^ k) with ⟨hEq, -⟩ | ⟨hEq, -⟩ <;> omega

/-- A number of more than 24 binary digits is rounded in units of the last digit that is kept. -/
theorem isNearest_quotientEven {a k : ℕ} (hLog : a.log2 = k + 23) (hk : k ≤ 103) :
    IsNearest a (quotientEven a (2 ^ k) * 2 ^ k) := by
  have hUnit : 0 < 2 ^ k := Nat.two_pow_pos k
  obtain ⟨hLower, hUpper⟩ := quotientEven_bounds hLog
  obtain ⟨m, e, hForm, hEven, hValue⟩ := exists_form hLower hUpper hk
  have hMultiple (j : ℤ) : |(a : ℚ) - quotientEven a (2 ^ k) * 2 ^ k| ≤ |(a : ℚ) - j * 2 ^ k| := by
    exact_mod_cast (quotientEven_nearest a hUnit j).1
  -- Values that are no multiples of the unit are beyond one that is.
  have hApart (z : ℚ) (hz : IsValue z) : (∃ j : ℤ, z = j * 2 ^ k) ∨
      |(a : ℚ) - quotientEven a (2 ^ k) * 2 ^ k| < |(a : ℚ) - z| := by
    have hFirst : ((2 ^ 23 : ℤ) : ℚ) * 2 ^ k = 2 ^ (k + 23) := by
      rw [Int.cast_pow, Int.cast_ofNat, ← pow_add, add_comm]
    have hBeyond : 2 ^ (k + 23) ≤ a := hLog ▸ Nat.log2_self_le (by rintro rfl; simp at hLog)
    refine (hz.multiple_or_far (by exact_mod_cast hBeyond)).imp id (lt_of_le_of_lt ?_)
    rw [← hFirst]
    exact hMultiple (2 ^ 23)
  refine ⟨⟨m, e, hForm, hValue⟩, fun z hz => ?_, fun z hz hTie hNe => ⟨m, e, hForm, ?_, hValue⟩⟩
  · rcases hApart z hz with ⟨j, rfl⟩ | hFar
    · exact hMultiple j
    · exact hFar.le
  · rcases hApart z hz with ⟨j, rfl⟩ | hFar
    · apply hEven
      apply (quotientEven_nearest a hUnit j).2
      · exact_mod_cast hTie
      · rintro rfl
        exact hNe (by rw [Int.cast_natCast])
    · exact absurd hTie hFar.ne'

end Single

namespace Sound.Clip

open Single

theorem roundSingle_neg (n : ℤ) : roundSingle (-n) = -roundSingle n := by
  unfold roundSingle
  dsimp only
  rw [Int.natAbs_neg]
  split
  · rfl
  · rename_i hMany
    have hNe : n ≠ 0 := by
      rintro rfl
      exact hMany (by decide)
    rcases lt_or_gt_of_ne hNe with hNeg | hPos
    · rw [if_neg (by omega), if_pos hNeg, neg_neg]
    · rw [if_pos (by omega), if_neg (by omega)]

theorem roundSingle_natCast_isNearest {a : ℕ} (ha : a < 2 ^ 127) :
    IsNearest a (roundSingle a) := by
  rw [roundSingle, Int.natAbs_natCast]
  dsimp only
  split
  · rename_i hFew
    exact (isValue_natCast hFew).isNearest_self
  · rename_i hMany
    have hNe : a ≠ 0 := by
      rintro rfl
      exact hMany (by decide)
    have hLog : a.log2 < 127 := (Nat.log2_lt hNe).mpr ha
    rw [if_neg (by omega)]
    exact_mod_cast isNearest_quotientEven (k := a.log2 - 23) (by omega) (by omega)

/-- A whole number is rounded to the value of a single word. -/
theorem roundSingle_isNearest {n : ℤ} (hn : |n| < 2 ^ 127) : IsNearest n (roundSingle n) := by
  obtain ⟨a, rfl | rfl⟩ := n.eq_nat_or_neg
  · rw [Nat.abs_cast] at hn
    exact roundSingle_natCast_isNearest (by exact_mod_cast hn)
  · rw [abs_neg, Nat.abs_cast] at hn
    rw [roundSingle_neg, Int.cast_neg, Int.cast_neg]
    exact (roundSingle_natCast_isNearest (by exact_mod_cast hn)).neg

end Sound.Clip

end Radioplay
