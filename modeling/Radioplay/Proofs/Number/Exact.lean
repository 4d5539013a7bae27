import Mathlib
import Radioplay.Proofs.Outcome
import Radioplay.Quantity

/-! Quotients that are exact as doubles: a whole number of at most 53 bits over a power of two. Such
a number fills a significand by shifting in zeros, so wherever rounding drops bits again it drops
zeros, and a division by a power of two moves the exponent alone. -/

namespace Radioplay.Binary64

open Float.Model (Format totalExponent)
open Float.Model.UnpackedFloat

/-- A significand with its leading bit, and an exponent that a finite word of full precision has. -/
structure IsNormal (m : ℕ) (e : ℤ) : Prop where
  lower : 2 ^ 52 ≤ m
  upper : m < 2 ^ 53
  exponent_lower : -1074 ≤ e
  exponent_upper : e ≤ 971

variable {m : ℕ} {e : ℤ} {s : Sign}

theorem IsNormal.pos (h : IsNormal m e) : 0 < m := (Nat.two_pow_pos 52).trans_le h.lower

theorem IsNormal.log2 (h : IsNormal m e) : m.log2 = 52 :=
  (Nat.log2_eq_iff h.pos.ne').mpr ⟨h.lower, h.upper⟩

/-! ### Rounding -/

/-- Bits that are zero are dropped without a trace. -/
theorem shiftRight_zeros (m k : ℕ) :
    (⟨m * 2 ^ k, false, false⟩ : ExtendedMantissa) >>> k = ⟨m, false, false⟩ := by
  change Nat.repeat ExtendedMantissa.shiftRightOne k _ = _
  induction k generalizing m with
  | zero => rw [pow_zero, mul_one, Nat.repeat]
  | succ k ih =>
    rw [Nat.repeat, pow_succ', ← mul_assoc, ih (m * 2), ExtendedMantissa.shiftRightOne]
    simp

theorem log2_mul_two_pow {n : ℕ} (hn : n ≠ 0) (k : ℕ) : (n * 2 ^ k).log2 = n.log2 + k := by
  induction k with
  | zero => rw [pow_zero, mul_one, add_zero]
  | succ k ih =>
    have hNe : n * 2 ^ k ≠ 0 := Nat.mul_ne_zero hn (Nat.two_pow_pos k).ne'
    rw [pow_succ, mul_comm (2 ^ k), mul_left_comm, Nat.log2_two_mul hNe, ih, add_assoc]

theorem targetExponent_of_log2 {n : ℕ} {l e : ℤ} (hLog : (n.log2 : ℤ) = l)
    (he : -1074 ≤ l - 52 + e) :
    Format.binary64.targetExponent (totalExponent n e) = l - 52 + e := by
  have hTotal : totalExponent n e = l + 1 + e := by rw [totalExponent, hLog]
  change max (totalExponent n e - 53) (-1074) = _
  omega

theorem shiftToTargetExponent_zeros (h : IsNormal m e) (k : ℕ) :
    shiftToTargetExponent Format.binary64 (m * 2 ^ k) (e - k) .exact =
      (⟨m, false, false⟩, e) := by
  have hLog : ((m * 2 ^ k).log2 : ℤ) = 52 + k := by
    rw [log2_mul_two_pow h.pos.ne', h.log2]
    rfl
  have hLower := h.exponent_lower
  have hTarget := targetExponent_of_log2 (e := e - k) hLog (by omega)
  have hShift : ((52 + k : ℤ) - 52 + (e - k) - (e - k)).toNat = k := by omega
  rw [shiftToTargetExponent, hTarget, shiftToExponent, hShift]
  simp only [ExtendedMantissa.ofMantissaAndAccuracy, shiftRight_zeros, sub_add_cancel]

/-- A significand with zeros after it is rounded to itself. -/
theorem roundWithAccuracy_zeros (h : IsNormal m e) (s : Sign) (k : ℕ) :
    roundWithAccuracy Format.binary64 s (m * 2 ^ k) (e - k) .exact = .finite s m e h.pos := by
  have hAgain : shiftToTargetExponent Format.binary64 m e .exact = (⟨m, false, false⟩, e) := by
    simpa using shiftToTargetExponent_zeros h 0
  have hRounded : ExtendedMantissa.roundedMantissa ⟨m, false, false⟩ = m := rfl
  simp only [roundWithAccuracy, shiftToTargetExponent_zeros h k, hRounded, hAgain,
    h.pos.ne', dite_false]

/-! ### Words -/

theorem toNat_append {v w : ℕ} (high : BitVec v) (low : BitVec w) :
    (high ++ low).toNat = high.toNat * 2 ^ w + low.toNat := by
  rw [BitVec.toNat_append, ← Nat.shiftLeft_add_eq_or_of_lt low.isLt, Nat.shiftLeft_eq]

/-- A word of full precision holds its sign, its exponent, moved up to be positive, and the
significand without its leading bit. -/
theorem pack_normal (h : IsNormal m e) (s : Sign) :
    pack Format.binary64 (.finite s m e h.pos) =
      packComponents Format.binary64 s (BitVec.ofNat 11 (e + 1075).toNat)
        (BitVec.ofNat 52 m) := by
  have hUpper := h.exponent_upper
  have hField : (e + Format.binary64.exponentBias + Format.binary64.mantissaBitsWithoutImplicit) =
      e + 1075 := by
    change e + 1023 + 52 = _
    ring
  have hFinite : ¬2 ^ Format.binary64.exponentBits ≤ (e + 1075).toNat + 1 := by
    change ¬2048 ≤ _
    omega
  have hLog : m.log2 + 1 = Format.binary64.mantissaBits := by rw [h.log2]; rfl
  rw [pack]
  simp only [hField, if_neg hFinite, if_pos hLog]

/-- A word of full precision is taken apart into what it was made of. -/
theorem unpack_pack (h : IsNormal m e) (s : Sign) :
    unpack Format.binary64 (pack Format.binary64 (.finite s m e h.pos)) =
      .finite s m e h.pos := by
  have hLower := h.lower
  have hUpper := h.upper
  have hExpLower := h.exponent_lower
  have hExpUpper := h.exponent_upper
  have hField : (BitVec.ofNat 11 (e + 1075).toNat).toNat = (e + 1075).toNat := by
    rw [BitVec.toNat_ofNat]
    omega
  have hNotOnes : BitVec.ofNat 11 (e + 1075).toNat ≠ -1#11 := by
    intro hEq
    rw [hEq] at hField
    change 2047 = _ at hField
    omega
  have hNotZero : BitVec.ofNat 11 (e + 1075).toNat ≠ 0#11 := by
    intro hEq
    rw [hEq] at hField
    change 0 = _ at hField
    omega
  have hSignificand : (1#1 ++ BitVec.ofNat 52 m).toNat = m := by
    rw [toNat_append, BitVec.toNat_ofNat, BitVec.toNat_ofNat]
    omega
  have hExponent : ((e + 1075).toNat : ℤ) -
      (Format.binary64.exponentBias + Format.binary64.mantissaBitsWithoutImplicit) = e := by
    change ((e + 1075).toNat : ℤ) - (1023 + 52) = e
    omega
  have hSign : Sign.ofBitVec s.toBitVec = s := by cases s <;> rfl
  rw [pack_normal h, unpack]
  simp only [unpackMantissa_packComponents, unpackExponent_packComponents,
    unpackSign_packComponents, hField, hNotOnes, hNotZero, if_false, hSignificand, hExponent, hSign]

/-- A double is the word of `m · 2 ^ e` with the sign `s`. -/
def IsWordOf (x : Float) (s : Sign) (m : ℕ) (e : ℤ) : Prop :=
  ∃ h : IsNormal m e, x.toModel = .pack (.finite s m e h.pos)

theorem IsWordOf.unpack_eq {x : Float} (h : IsWordOf x s m e) :
    ∃ h : IsNormal m e, x.toModel.unpack = .finite s m e h.pos := by
  obtain ⟨hNormal, hx⟩ := h
  refine ⟨hNormal, ?_⟩
  rw [hx]
  exact unpack_pack hNormal s

/-- The fields of a word, read off its bits. -/
theorem IsWordOf.parts?_eq {x : Float} (h : IsWordOf x s m e) :
    parts? x = some ⟨s == .negative, m, e⟩ := by
  obtain ⟨hNormal, hx⟩ := h
  have hLower := hNormal.lower
  have hUpper := hNormal.upper
  have hExpLower := hNormal.exponent_lower
  have hExpUpper := hNormal.exponent_upper
  have hBits : x.toBits.toNat =
      s.toBitVec.toNat * 2 ^ 63 + (e + 1075).toNat * 2 ^ 52 + m % 2 ^ 52 := by
    have hPacked : x.toBits.toNat =
        (pack Format.binary64 (.finite s m e hNormal.pos)).toNat := by
      rw [Float.toBits, hx]
      rfl
    rw [hPacked, pack_normal hNormal]
    change (s.toBitVec ++ BitVec.ofNat 11 (e + 1075).toNat ++ BitVec.ofNat 52 m).toNat = _
    simp only [toNat_append, BitVec.toNat_ofNat]
    omega
  have hSignBit := s.toBitVec.isLt
  have hBiased : x.toBits.toNat / 2 ^ 52 % 2048 = (e + 1075).toNat := by omega
  have hFraction : x.toBits.toNat % 2 ^ 52 = m % 2 ^ 52 := by omega
  have hSign : decide (2 ^ 63 ≤ x.toBits.toNat) = (s == .negative) := by
    cases s with
    | negative =>
      change x.toBits.toNat = 1 * 2 ^ 63 + _ + _ at hBits
      exact decide_eq_true (by omega)
    | positive =>
      change x.toBits.toNat = 0 * 2 ^ 63 + _ + _ at hBits
      exact decide_eq_false (by omega)
  have hNotOnes : ¬(e + 1075).toNat = 2047 := by omega
  have hNotZero : ¬(e + 1075).toNat = 0 := by omega
  have hSignificand : m % 2 ^ 52 + 2 ^ 52 = m := by omega
  have hExponent : ((e + 1075).toNat : ℤ) - 1075 = e := by omega
  simp only [parts?]
  rw [hBiased, hFraction, hSign, if_neg hNotOnes, if_neg hNotZero, hSignificand, hExponent]

/-! ### Arithmetic -/

/-- Zeros after the digits of a number bring it to any greater number of digits. -/
theorem shift_bounds {n w : ℕ} (hn : n ≠ 0) (hLog : n.log2 ≤ w) :
    2 ^ w ≤ n * 2 ^ (w - n.log2) ∧ n * 2 ^ (w - n.log2) < 2 ^ (w + 1) := by
  have hLower : 2 ^ n.log2 ≤ n := Nat.log2_self_le hn
  have hUpper : n < 2 ^ (n.log2 + 1) := Nat.lt_log2_self
  have hFull : 2 ^ n.log2 * 2 ^ (w - n.log2) = 2 ^ w := by
    rw [← pow_add, Nat.add_sub_cancel' hLog]
  constructor
  · rw [← hFull]
    exact Nat.mul_le_mul_right _ hLower
  · calc n * 2 ^ (w - n.log2) < 2 ^ (n.log2 + 1) * 2 ^ (w - n.log2) :=
          Nat.mul_lt_mul_of_pos_right hUpper (Nat.two_pow_pos _)
      _ = 2 ^ (w + 1) := by rw [pow_succ', mul_assoc, hFull, ← pow_succ']

theorem isNormal_shift {n : ℕ} (hn : n ≠ 0) (hSize : n < 2 ^ 53) :
    IsNormal (n * 2 ^ (52 - n.log2)) ((n.log2 : ℤ) - 52) := by
  have hLog : n.log2 < 53 := (Nat.log2_lt hn).mpr hSize
  obtain ⟨hLower, hUpper⟩ := shift_bounds hn (Nat.le_of_lt_succ hLog)
  exact ⟨hLower, hUpper, by omega, by omega⟩

/-- A whole number of at most 53 bits fills its significand by zeros. -/
theorem ofUInt64_isWordOf {n : ℕ} (hn : n ≠ 0) (hSize : n < 2 ^ 53) :
    IsWordOf n.toUInt64.toFloat .positive (n * 2 ^ (52 - n.log2)) ((n.log2 : ℤ) - 52) := by
  have hNormal := isNormal_shift hn hSize
  have hLog : n.log2 < 53 := (Nat.log2_lt hn).mpr hSize
  have hWord : n.toUInt64.toNat = n := Nat.mod_eq_of_lt (by omega)
  have hPos : compare (n : ℤ) 0 = .gt := Int.compare_eq_gt.mpr (by omega)
  have hTarget := targetExponent_of_log2 (n := n) (e := 0) rfl (by omega)
  have hShift : (0 - ((n.log2 : ℤ) - 52 + 0)).toNat = 52 - n.log2 := by omega
  have hExponent : (0 : ℤ) - (52 - n.log2 : ℕ) = (n.log2 : ℤ) - 52 := by omega
  have hRound := roundWithAccuracy_zeros hNormal .positive 0
  refine ⟨hNormal, ?_⟩
  change Float.Model.pack (normalize Format.binary64 (n.toUInt64.toNat : ℤ) 0 .positive) = _
  rw [hWord]
  simp only [Float.Model.UnpackedFloat.normalize, hPos, Int.toNat_natCast,
    Float.Model.UnpackedFloat.round, hTarget, decreaseExponent, hShift, hExponent, Nat.shiftLeft_eq]
  rw [pow_zero, mul_one, Nat.cast_zero, sub_zero] at hRound
  rw [hRound]

/-- Multiplication by one rounds off the zeros that it has brought. -/
theorem IsWordOf.mul_one {x : Float} (h : IsWordOf x .positive m e) :
    IsWordOf (x * .ofBits 4607182418800017408) .positive m e := by
  obtain ⟨hNormal, hx⟩ := h.unpack_eq
  have hOne : (Float.Model.ofBits 4607182418800017408).unpack =
      .finite .positive (2 ^ 52) (-52) (Nat.two_pow_pos 52) := rfl
  refine ⟨hNormal, ?_⟩
  change Float.Model.pack (mul Format.binary64 x.toModel.unpack
    (Float.Model.ofBits 4607182418800017408).unpack) = _
  rw [hx, hOne]
  exact congrArg Float.Model.pack (roundWithAccuracy_zeros hNormal .positive 52)

theorem ofNat_isWordOf {n : ℕ} (hn : n ≠ 0) (hSize : n < 2 ^ 53) :
    IsWordOf (.ofNat n) .positive (n * 2 ^ (52 - n.log2)) ((n.log2 : ℤ) - 52) := by
  have hProduct : Float.ofNat n = n.toUInt64.toFloat * .ofBits 4607182418800017408 := by
    change Float.ofScientific n false 0 = _
    rw [Float.ofScientific, dif_pos ⟨hSize, Nat.zero_le 22⟩]
    rfl
  rw [hProduct]
  exact (ofUInt64_isWordOf hn hSize).mul_one

theorem IsWordOf.neg {x : Float} (h : IsWordOf x s m e) : IsWordOf x.neg (-s) m e := by
  obtain ⟨hNormal, hx⟩ := h.unpack_eq
  refine ⟨hNormal, ?_⟩
  change Float.Model.pack (Float.Model.UnpackedFloat.neg x.toModel.unpack) = _
  rw [hx]
  rfl

/-- The sign of a whole number. -/
def signOf (n : ℤ) : Sign := if n < 0 then .negative else .positive

theorem signOf_apply (n : ℤ) : (signOf n).apply n.natAbs = n := by
  unfold signOf
  split
  · change -(n.natAbs : ℤ) = n
    omega
  · change (n.natAbs : ℤ) = n
    omega

theorem apply_mul (s : Sign) (a b : ℤ) : s.apply (a * b) = s.apply a * b := by
  cases s with
  | negative => exact (Int.neg_mul a b).symm
  | positive => rfl

theorem ofInt_isWordOf {n : ℤ} (hn : n ≠ 0) (hSize : n.natAbs < 2 ^ 53) :
    IsWordOf (.ofInt n) (signOf n) (n.natAbs * 2 ^ (52 - n.natAbs.log2))
      ((n.natAbs.log2 : ℤ) - 52) := by
  cases n with
  | ofNat n =>
    rw [Int.ofNat_eq_natCast] at hn hSize ⊢
    rw [Int.natAbs_natCast] at hSize ⊢
    rw [signOf, if_neg (by omega)]
    exact ofNat_isWordOf (by omega) hSize
  | negSucc n =>
    rw [Int.natAbs_negSucc] at hSize ⊢
    have hWord := (ofNat_isWordOf n.succ_ne_zero hSize).neg
    rw [signOf, if_pos (Int.negSucc_lt_zero n)]
    exact hWord

/-- Division by a power of two moves the exponent alone. -/
theorem IsWordOf.div_two_pow {x y : Float} {k : ℕ} (h : IsWordOf x s m e)
    (hy : IsWordOf y .positive (2 ^ 52) ((k : ℤ) - 52)) (hLower : -1074 < e - k) :
    IsWordOf (x / y) s m (e - k) := by
  obtain ⟨hNormal, hx⟩ := h.unpack_eq
  obtain ⟨hPower, hy⟩ := hy.unpack_eq
  have hUpper := hNormal.exponent_upper
  have hMoved : IsNormal m (e - k) :=
    ⟨hNormal.lower, hNormal.upper, hLower.le, by omega⟩
  -- The quotient has one bit more than a significand, and that bit is zero.
  have hCore : divCore Format.binary64 m e (2 ^ 52) ((k : ℤ) - 52) =
      (m * 2 ^ 1, e - k - (1 : ℕ), .exact) := by
    have hTotal : totalExponent m e - totalExponent (2 ^ 52) ((k : ℤ) - 52) = e - k + 52 := by
      rw [totalExponent, totalExponent, hNormal.log2, Nat.log2_two_pow]
      omega
    have hTarget : min (e - ((k : ℤ) - 52)) (Format.binary64.targetExponent (e - k + 52)) =
        e - k - 1 := by
      change min _ (max (e - k + 52 - 53) (-1074)) = _
      omega
    have hShift : (e - ((k : ℤ) - 52) - (e - k - 1)).toNat = 53 := by omega
    have hQuotient : m <<< 53 = m * 2 ^ 1 * 2 ^ 52 := by rw [Nat.shiftLeft_eq, mul_assoc]; rfl
    simp only [divCore, hTotal, hTarget, hShift, hQuotient]
    rw [Nat.mul_div_cancel _ (Nat.two_pow_pos 52), Nat.mul_mod_left]
    rfl
  have hSign : s / .positive = s := by cases s <;> rfl
  refine ⟨hMoved, ?_⟩
  change Float.Model.pack (div Format.binary64 x.toModel.unpack y.toModel.unpack) = _
  rw [hx, hy, ← roundWithAccuracy_zeros hMoved s 1, div, hCore]
  simp only [hSign]

theorem parts?_zero_div {y : Float} (h : IsWordOf y .positive m e) :
    parts? (.ofNat 0 / y) = some ⟨false, 0, -1074⟩ := by
  obtain ⟨hNormal, hy⟩ := h.unpack_eq
  have hZero : (Float.ofNat 0).toModel.unpack = .zero .positive := by rfl
  have hWord : (Float.ofNat 0 / y).toModel = .pack (.zero .positive) := by
    change Float.Model.pack (div Format.binary64 (Float.ofNat 0).toModel.unpack y.toModel.unpack) =
      _
    rw [hZero, hy]
    rfl
  have hBits : (Float.ofNat 0 / y).toBits = 0 := by
    rw [Float.toBits, hWord]
    rfl
  rw [parts?, hBits]
  rfl

theorem toRat_of_parts? {x : Float} (h : parts? x = some ⟨s == .negative, m, e⟩) (he : e ≤ 0) :
    (Number.float x).toRat = .ok (s.apply m / 2 ^ (-e).toNat : ℚ) := by
  have hFraction : (Parts.mk (s == .negative) m e).fraction = (s.apply m, 2 ^ (-e).toNat) := by
    have hSigned : (if s == .negative then -(m : ℤ) else m) = s.apply m := by cases s <;> rfl
    rcases he.lt_or_eq with hNeg | hZero
    · rw [Parts.fraction, Parts.magnitude, if_neg (not_le.mpr hNeg), ← hSigned]
    · subst hZero
      rw [Parts.fraction, Parts.magnitude, if_pos le_rfl, ← hSigned]
      simp
  rw [Number.toRat, Number.wholeParts, h, ok_bind, hFraction]
  show Except.ok (mkRat _ _) = _
  rw [Rat.mkRat_eq_div]
  push_cast
  rfl

/-- The exact worth of a whole number of at most 53 bits that is divided by a power of two. -/
theorem toRat_ratio {n : ℤ} {k : ℕ} (hn : n.natAbs < 2 ^ 53) (hk : k < 53) :
    (Number.ratio n (2 ^ k)).toRat = .ok (n / 2 ^ k : ℚ) := by
  have hSmall : n.natAbs < 2 ^ 53 ∧ 2 ^ k < 2 ^ 53 := ⟨hn, Nat.pow_lt_pow_right (by decide) hk⟩
  have hPower : IsWordOf (.ofNat (2 ^ k)) .positive (2 ^ 52) ((k : ℤ) - 52) := by
    have hWord := ofNat_isWordOf (Nat.two_pow_pos k).ne' hSmall.2
    rw [Nat.log2_two_pow, ← pow_add, Nat.add_sub_cancel' (by omega)] at hWord
    exact hWord
  have hFloat : Number.ratio n (2 ^ k) = .float (.ofInt n / .ofNat (2 ^ k)) := if_pos hSmall
  rw [hFloat]
  by_cases hZero : n = 0
  · subst hZero
    exact (toRat_of_parts? (s := .positive) (parts?_zero_div hPower) (by decide)).trans
      (by simp [Sign.apply])
  · have hLog : n.natAbs.log2 < 53 := (Nat.log2_lt (Int.natAbs_ne_zero.mpr hZero)).mpr hn
    have hQuotient := (ofInt_isWordOf hZero hn).div_two_pow hPower (by omega)
    have hExponent : (-((n.natAbs.log2 : ℤ) - 52 - k)).toNat = k + (52 - n.natAbs.log2) := by omega
    have hSigned : (signOf n).apply (n.natAbs * 2 ^ (52 - n.natAbs.log2) : ℕ) =
        n * 2 ^ (52 - n.natAbs.log2) := by
      rw [Nat.cast_mul, apply_mul, signOf_apply]
      push_cast
      rfl
    rw [toRat_of_parts? hQuotient.parts?_eq (by omega), hExponent, hSigned]
    congr 1
    rw [pow_add]
    push_cast
    field_simp

end Radioplay.Binary64
