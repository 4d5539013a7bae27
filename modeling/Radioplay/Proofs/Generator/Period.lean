import Mathlib.Algebra.Ring.Periodic
import Mathlib.Data.UInt
import Mathlib.Dynamics.PeriodicPts.Lemmas
import Radioplay.Proofs.Generator.Draws

/-! The period of a generator, and the seeds that draw the same. The increment is odd, so the states
after two numbers of draws are equal just if the numbers are congruent modulo `2 ^ 32`, and every
word is the state after some number of draws. Draws are mixed from states by a function that is not
injective; but if two states drew the same for ever, their distance would be a period of it. Every
period but zero has `2 ^ 31` among its multiples, and that is none. -/

namespace Radioplay.Generator

open Function Quantity
open scoped UInt32.CommRing

/-- The generator after a draw. -/
def afterDraw (g : Generator) : Generator := g.next.2

/-! ### States -/

theorem state_inj {g g' : Generator} : g.state = g'.state ↔ g = g' := by
  constructor
  · intro h
    exact congrArg Generator.mk h
  · rintro rfl
    rfl

theorem cast_eq_iff (m n : ℕ) : (m : UInt32) = n ↔ m ≡ n [MOD 2 ^ 32] := by
  change UInt32.ofNat m = UInt32.ofNat n ↔ _
  rw [← UInt32.toNat_inj, UInt32.toNat_ofNat', UInt32.toNat_ofNat', Nat.ModEq]

theorem state_iterate (n : ℕ) (g : Generator) :
    (afterDraw^[n] g).state = g.state + n * increment := by
  induction n generalizing g with
  | zero => rw [iterate_zero_apply, Nat.cast_zero, zero_mul, add_zero]
  | succ n ih =>
    have hStep : (afterDraw g).state = g.state + increment := rfl
    rw [iterate_succ_apply, ih, hStep, Nat.cast_succ]
    ring

/-- The inverse of the increment modulo `2 ^ 32`. -/
theorem increment_mul : increment * 0xDC58AA5D = 1 := by decide

theorem mul_increment_inj {a b : UInt32} : a * increment = b * increment ↔ a = b := by
  constructor
  · intro h
    rw [← mul_one a, ← mul_one b, ← increment_mul, ← mul_assoc, ← mul_assoc, h]
  · rintro rfl
    rfl

theorem iterate_eq_iff (m n : ℕ) (g : Generator) :
    afterDraw^[m] g = afterDraw^[n] g ↔ m ≡ n [MOD 2 ^ 32] := by
  rw [← state_inj, state_iterate, state_iterate, add_right_inj, mul_increment_inj, cast_eq_iff]

theorem minimalPeriod_afterDraw (g : Generator) : minimalPeriod afterDraw g = 2 ^ 32 := by
  have hReturns (n : ℕ) : IsPeriodicPt afterDraw n g ↔ 2 ^ 32 ∣ n := by
    rw [← Nat.modEq_zero_iff_dvd, ← iterate_eq_iff n 0 g]
    rfl
  apply Nat.dvd_antisymm
  · exact isPeriodicPt_iff_minimalPeriod_dvd.mp ((hReturns _).mpr dvd_rfl)
  · exact (hReturns _).mp (isPeriodicPt_minimalPeriod afterDraw g)

theorem exists_state_iterate (g : Generator) (x : UInt32) :
    ∃ n, (afterDraw^[n] g).state = x := by
  refine ⟨((x - g.state) * 0xDC58AA5D).toNat, ?_⟩
  have hCast : ((((x - g.state) * 0xDC58AA5D).toNat : ℕ) : UInt32) =
      (x - g.state) * 0xDC58AA5D := UInt32.ofNat_toNat
  rw [state_iterate, hCast, mul_assoc, mul_comm _ increment, increment_mul]
  ring

/-! ### Draws -/

theorem outputs_eq (g : Generator) (n : ℕ) :
    outputs next g n = mix ((afterDraw^[n] g).state + increment) := by
  induction n generalizing g with
  | zero => rfl
  | succ n ih =>
    rw [outputs, iterate_succ_apply]
    exact ih (afterDraw g)

theorem ofSeed_state (seed : ℤ) : (ofSeed seed).state = (seed : UInt32) := rfl

theorem ofSeed_eq_iff (seed seed' : ℤ) :
    ofSeed seed = ofSeed seed' ↔ seed ≡ seed' [ZMOD 2 ^ 32] := by
  have hState (seed : ℤ) : (ofSeed seed).state.toNat = (seed % 2 ^ 32).toNat % 2 ^ 32 :=
    UInt32.toNat_ofNat'
  rw [← state_inj, ← UInt32.toNat_inj, hState, hState, Int.ModEq]
  omega

/-- Some multiple of any word but zero is the word of the highest bit. -/
theorem exists_mul_eq_highest {d : UInt32} (hd : d ≠ 0) :
    ∃ k : ℕ, (k : UInt32) * d = 0x80000000 := by
  have hPos : d.toNat ≠ 0 := by
    intro h
    exact hd (UInt32.toNat_inj.mp h)
  obtain ⟨j, o, ⟨i, rfl⟩, hFactor⟩ := Nat.exists_eq_two_pow_mul_odd hPos
  have hj : j ≤ 31 := by
    by_contra hLarge
    have hBound : 2 ^ 32 ≤ d.toNat := by
      rw [hFactor]
      exact (Nat.pow_le_pow_right two_pos (by omega)).trans (Nat.le_mul_of_pos_right _ (by omega))
    exact absurd d.toNat_lt (by omega)
  have hProduct : 2 ^ (31 - j) * d.toNat = 2 ^ 31 + 2 ^ 32 * i := by
    rw [hFactor, ← mul_assoc, ← pow_add, Nat.sub_add_cancel hj]
    ring
  refine ⟨2 ^ (31 - j), ?_⟩
  have hCast : ((d.toNat : ℕ) : UInt32) = d := UInt32.ofNat_toNat
  rw [← hCast, ← Nat.cast_mul, hProduct]
  change _ = ((2 ^ 31 : ℕ) : UInt32)
  rw [cast_eq_iff, Nat.ModEq]
  omega

theorem mix_aperiodic {d : UInt32} (h : Periodic mix d) : d = 0 := by
  by_contra hd
  obtain ⟨k, hk⟩ := exists_mul_eq_highest hd
  have hHighest : mix (0 + 0x80000000) = mix 0 := hk ▸ h.nat_mul k 0
  revert hHighest
  decide

/-- Two generators draw the same for ever just if they are in one state. -/
theorem outputs_eq_iff (g g' : Generator) :
    (∀ n, outputs next g n = outputs next g' n) ↔ g = g' := by
  constructor
  · intro h
    have hPeriodic : Periodic mix (g'.state - g.state) := by
      intro x
      obtain ⟨n, hn⟩ := exists_state_iterate g (x - increment)
      have hDrawn := h n
      rw [outputs_eq, outputs_eq, hn, sub_add_cancel] at hDrawn
      rw [state_iterate] at hn hDrawn
      refine Eq.trans (congrArg mix ?_) hDrawn.symm
      linear_combination -hn
    exact state_inj.mp (sub_eq_zero.mp (mix_aperiodic hPeriodic)).symm
  · rintro rfl n
    rfl

theorem unit_injective : Injective (unit : UInt32 → Number) := by
  intro a b h
  have hWorth := (toRat_unit a).symm.trans ((congrArg Number.toRat h).trans (toRat_unit b))
  have hWords := (div_left_inj' (by positivity)).mp (Except.ok.inj hWorth)
  exact UInt32.toNat_inj.mp (Nat.cast_injective hWords)

/-- The states after `1` to `2 ^ 32` draws from any seed are all different, and then they repeat,
not before. A draw after `n` others is the first one of a seed that lies `n` increments further. Two
seeds draw the same doubles for ever just if they are congruent modulo `2 ^ 32`. -/
theorem seeds_fullPeriod :
    (∀ seed : ℤ, Set.InjOn (fun n => (afterDraw^[n] (ofSeed seed)).state) (Set.Icc 1 (2 ^ 32)) ∧
      minimalPeriod afterDraw (ofSeed seed) = 2 ^ 32) ∧
    (∀ (seed : ℤ) (n : ℕ),
      outputs next (ofSeed seed) n = (ofSeed (seed + n * 0x6D2B79F5)).next.1) ∧
    ∀ seed seed' : ℤ,
      (∀ n, (unit (outputs next (ofSeed seed) n) : Number) =
        unit (outputs next (ofSeed seed') n)) ↔ seed ≡ seed' [ZMOD 2 ^ 32] := by
  refine ⟨fun seed => ⟨?_, minimalPeriod_afterDraw _⟩, ?_, ?_⟩
  · intro m hm n hn hEq
    have hIterate : afterDraw^[m] (ofSeed seed) = afterDraw^[n] (ofSeed seed) := state_inj.mp hEq
    rw [iterate_eq_iff, Nat.ModEq] at hIterate
    rw [Set.mem_Icc] at hm hn
    omega
  · intro seed n
    have hSeed : (ofSeed (seed + n * 0x6D2B79F5)).state =
        (ofSeed seed).state + n * increment := by
      rw [ofSeed_state, ofSeed_state]
      push_cast
      rfl
    rw [outputs_eq, state_iterate, ← hSeed]
    rfl
  · intro seed seed'
    rw [← ofSeed_eq_iff, ← outputs_eq_iff]
    exact forall_congr' fun n => unit_injective.eq_iff

end Radioplay.Generator
