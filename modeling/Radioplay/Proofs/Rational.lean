import Mathlib.Algebra.Order.Field.Rat
import Mathlib.Tactic.Linarith
import Radioplay.Generator
import Radioplay.Proofs.Outcome

/-! Quantities that are rational numbers: each operation is the one on rationals, and only a
division by zero can fail. -/

namespace Radioplay

/-- Rounding does not pass a whole number. -/
theorem roundEven_le {x : ℚ} {n : ℤ} (h : x ≤ n) : roundEven x ≤ n := by
  have hFloor : x.floor ≤ n := Rat.floor_intCast n ▸ Rat.floor_monotone h
  rcases hFloor.lt_or_eq with hLess | hEq
  · unfold roundEven
    dsimp only
    split_ifs <;> omega
  · -- The floor is the whole number itself, so nothing is left to round up.
    have hPart : x - x.floor < 1 / 2 := by
      rw [hEq]
      linarith
    rw [roundEven, if_pos hPart, hEq]

namespace Quantity

@[simp] theorem ofInt_rat (n : ℤ) : (ofInt n : ℚ) = n := rfl

@[simp] theorem ratio_rat (n : ℤ) (d : ℕ) : (ratio n d : ℚ) = n / d := Rat.mkRat_eq_div n d

@[simp] theorem add_rat (x y : ℚ) : add x y = .ok (x + y) := rfl

@[simp] theorem sub_rat (x y : ℚ) : sub x y = .ok (x - y) := rfl

@[simp] theorem mul_rat (x y : ℚ) : mul x y = .ok (x * y) := rfl

theorem div_rat {x y : ℚ} (hy : y ≠ 0) : div x y = .ok (x / y) := if_neg hy

theorem div_rat_eq_ok {x y z : ℚ} : div x y = .ok z ↔ y ≠ 0 ∧ x / y = z := by
  by_cases hy : y = 0
  · have hFault : div x y = .error .divisionByZero := if_pos hy
    rw [hFault]
    exact ⟨nofun, fun h => absurd hy h.1⟩
  · rw [div_rat hy]
    exact ⟨fun h => ⟨hy, Except.ok.inj h⟩, fun h => congrArg Except.ok h.2⟩

@[simp] theorem floor_rat (x : ℚ) : floor x = .ok x.floor := rfl

@[simp] theorem round_rat (x : ℚ) : round x = .ok (roundEven x) := rfl

@[simp] theorem measured_rat (x : ℚ) : measured x = .ok x := rfl

@[simp] theorem lt_rat (x y : ℚ) : lt x y = decide (x < y) := rfl

@[simp] theorem le_rat (x y : ℚ) : le x y = decide (x ≤ y) := rfl

@[simp] theorem greater_rat (x y : ℚ) : greater x y = max x y := by
  rw [greater, lt_rat]
  by_cases h : x < y
  · simp [h, max_eq_right h.le]
  · simp [h, max_eq_left (not_lt.mp h)]

@[simp] theorem lesser_rat (x y : ℚ) : lesser x y = min x y := by
  rw [lesser, lt_rat]
  by_cases h : y < x
  · simp [h, min_eq_right h.le]
  · simp [h, min_eq_left (not_lt.mp h)]

end Quantity

theorem Generator.unit_rat (m : UInt32) : (unit m : ℚ) = m.toNat / 2 ^ 32 := by
  rw [unit, Quantity.ratio_rat]
  norm_num

end Radioplay
