import Radioplay.Generator
import Radioplay.Proofs.Number.Exact

/-! The draws of a seed. A generator works on words of 32 bits, where every sum and every product
wraps. The same steps on unbounded whole numbers, of which a mask keeps the low 32 bits of the sums
and the products only, give the same draws: what the mask lets pass is a word at every step, so no
shift brings down a bit that a word does not have. Both give the outputs of mulberry32, and as a
double each draw is its output over `2 ^ 32` exactly. -/

namespace Radioplay

/-- The output of a machine after `n` others. -/
def outputs {σ β : Type} (next : σ → β × σ) (s : σ) : ℕ → β
  | 0 => (next s).1
  | n + 1 => outputs next (next s).2 n

/-- Machines whose steps keep their states related have related outputs. -/
theorem outputs_related {σ τ β γ : Type} {next : σ → β × σ} {next' : τ → γ × τ} {R : σ → τ → Prop}
    {P : β → γ → Prop}
    (hNext : ∀ s t, R s t → P (next s).1 (next' t).1 ∧ R (next s).2 (next' t).2) {s : σ} {t : τ}
    (h : R s t) (n : ℕ) : P (outputs next s n) (outputs next' t n) := by
  induction n generalizing s t with
  | zero => exact (hNext s t h).1
  | succ n ih => exact ih (hNext s t h).2

namespace Generator

open Quantity

/-! ### The reference -/

/-- A step of mulberry32: the state moves on, and the output is mixed from where it then is. -/
def mulberry (state : BitVec 32) : BitVec 32 × BitVec 32 :=
  let state := state + 0x6D2B79F5
  let t := state
  let t := (t ^^^ (t >>> 15)) * (t ||| 1)
  let t := t ^^^ (t + (t ^^^ (t >>> 7)) * (t ||| 61))
  (t ^^^ (t >>> 14), state)

theorem mulberry_state (g : Generator) :
    mulberry g.state.toBitVec = (g.next.1.toBitVec, g.next.2.state.toBitVec) := by
  have hMix (s : UInt32) : mix s =
      (let t := (s ^^^ (s >>> 15)) * (s ||| 1)
       let t := t ^^^ (t + (t ^^^ (t >>> 7)) * (t ||| 61))
       t ^^^ (t >>> 14)) := by
    simp only [mix]
    rw [UInt32.xor_comm (_ + _)]
  rw [next, hMix]
  rfl

/-! ### Unbounded numbers -/

namespace Unbounded

def mask : ℤ := 0xFFFFFFFF

/-- The state that a seed starts from: its low 32 bits. -/
def start (seed : ℤ) : ℤ := seed.land mask

def product (a b : ℤ) : ℤ := (a * b).land mask

/-- A step on unbounded numbers, with a mask after each sum and each product. -/
def next {α : Type} [Quantity α] (state : ℤ) : α × ℤ :=
  let state := (state + 0x6D2B79F5).land mask
  let t := state
  let t := product (t.xor (t >>> (15 : ℕ))) (t.lor 1)
  let t := ((t + product (t.xor (t >>> (7 : ℕ))) (t.lor 61)).land mask).xor t
  (ratio (t.xor (t >>> (14 : ℕ))) (2 ^ 32), state)

theorem land_mask (n : ℤ) : n.land mask = n % 2 ^ 32 := by
  have hMask : mask = ((2 ^ 32 - 1 : ℕ) : ℤ) := rfl
  rw [hMask]
  cases n with
  | ofNat n =>
    change ((n &&& 2 ^ 32 - 1 : ℕ) : ℤ) = _
    rw [Nat.and_two_pow_sub_one_eq_mod]
    rfl
  | negSucc n =>
    have hBits : Nat.ldiff (2 ^ 32 - 1) n = 2 ^ 32 - (n % 2 ^ 32 + 1) := by
      apply Nat.eq_of_testBit_eq
      intro i
      rw [Nat.testBit_ldiff, Nat.testBit_two_pow_sub_one,
        Nat.testBit_two_pow_sub_succ (Nat.mod_lt n (Nat.two_pow_pos 32)), Nat.testBit_mod_two_pow]
      cases decide (i < 32) <;> rfl
    change (Nat.ldiff (2 ^ 32 - 1) n : ℤ) = _
    rw [hBits]
    omega

variable (a b : UInt32)

theorem add_toNat : ((a.toNat : ℤ) + b.toNat).land mask = (a + b).toNat := by
  rw [land_mask, UInt32.toNat_add]
  rfl

theorem product_toNat : product a.toNat b.toNat = (a * b).toNat := by
  rw [product, land_mask, UInt32.toNat_mul]
  rfl

theorem xor_toNat : (a.toNat : ℤ).xor b.toNat = (a ^^^ b).toNat := by
  rw [UInt32.toNat_xor]
  rfl

theorem lor_toNat : (a.toNat : ℤ).lor b.toNat = (a ||| b).toNat := by
  rw [UInt32.toNat_or]
  rfl

theorem shiftRight_toNat {k : ℕ} (hk : k < 32) :
    (a.toNat : ℤ) >>> k = (a >>> UInt32.ofNat k).toNat := by
  have hAmount : (UInt32.ofNat k).toNat % 32 = k := by
    rw [UInt32.toNat_ofNat']
    omega
  rw [UInt32.toNat_shiftRight, hAmount]
  rfl

/-- On a word, the step on unbounded numbers is the step on words. -/
theorem next_toNat {α : Type} [Quantity α] (g : Generator) :
    (next g.state.toNat : α × ℤ) = (unit g.next.1, (g.next.2.state.toNat : ℤ)) := by
  have hState : ((g.state.toNat : ℤ) + 0x6D2B79F5).land mask = g.next.2.state.toNat :=
    add_toNat g.state increment
  have hOne (s : UInt32) : (s.toNat : ℤ).lor 1 = (s ||| 1).toNat := lor_toNat s 1
  have hSixtyOne (s : UInt32) : (s.toNat : ℤ).lor 61 = (s ||| 61).toNat := lor_toNat s 61
  simp only [next, hState, hOne, hSixtyOne, shiftRight_toNat _ (k := 15) (by decide),
    shiftRight_toNat _ (k := 7) (by decide), shiftRight_toNat _ (k := 14) (by decide),
    xor_toNat, product_toNat, add_toNat]
  rfl

theorem start_toNat (seed : ℤ) : start seed = ((ofSeed seed).state.toNat : ℤ) := by
  have hState : (ofSeed seed).state.toNat = (seed % 2 ^ 32).toNat % 2 ^ 32 := UInt32.toNat_ofNat'
  rw [start, land_mask, hState]
  omega

end Unbounded

theorem ofSeed_toBitVec (seed : ℤ) : (ofSeed seed).state.toBitVec = BitVec.ofInt 32 seed := by
  apply BitVec.eq_of_toNat_eq
  rw [BitVec.toNat_ofInt]
  change (seed % 2 ^ 32).toNat % 2 ^ 32 = (seed % 2 ^ 32).toNat
  omega

/-! ### Draws -/

/-- A draw as a double is its word over `2 ^ 32`, and nothing is rounded. -/
theorem toRat_unit (m : UInt32) : (unit m : Number).toRat = .ok (m.toNat / 2 ^ 32 : ℚ) := by
  rw [← Int.cast_natCast]
  exact Binary64.toRat_ratio (k := 32) (m.toNat_lt.trans (by decide)) (by decide)

theorem outputs_mulberry (seed : ℤ) (n : ℕ) :
    outputs mulberry (BitVec.ofInt 32 seed) n = (outputs next (ofSeed seed) n).toBitVec := by
  refine outputs_related (R := fun s (g : Generator) => s = g.state.toBitVec)
    (P := fun w (m : UInt32) => w = m.toBitVec) ?_ (ofSeed_toBitVec seed).symm n
  rintro _ g rfl
  rw [mulberry_state]
  exact ⟨rfl, rfl⟩

theorem outputs_unbounded {α : Type} [Quantity α] (seed : ℤ) (n : ℕ) :
    outputs Unbounded.next (Unbounded.start seed) n =
      (unit (outputs next (ofSeed seed) n) : α) := by
  refine outputs_related (R := fun s (g : Generator) => s = (g.state.toNat : ℤ))
    (P := fun x m => x = unit m) ?_ (Unbounded.start_toNat seed) n
  rintro _ g rfl
  rw [Unbounded.next_toNat]
  exact ⟨rfl, rfl⟩

/-- After `n` draws from a seed, the generator draws what mulberry32 puts out after as many outputs
from the low 32 bits of the seed. The same double comes of masked arithmetic on unbounded numbers.
It is that output over `2 ^ 32` exactly, and so in `[0, 1)`. -/
theorem draws_exact (seed : ℤ) (n : ℕ) :
    (outputs next (ofSeed seed) n).toBitVec = outputs mulberry (BitVec.ofInt 32 seed) n ∧
      outputs Unbounded.next (Unbounded.start seed) n =
        (unit (outputs next (ofSeed seed) n) : Number) ∧
      ∃ x : ℚ, (unit (outputs next (ofSeed seed) n) : Number).toRat = .ok x ∧
        x = (outputs mulberry (BitVec.ofInt 32 seed) n).toNat / 2 ^ 32 ∧ 0 ≤ x ∧ x < 1 := by
  have hWord := outputs_mulberry seed n
  refine ⟨hWord.symm, outputs_unbounded seed n, _, toRat_unit _, ?_, by positivity, ?_⟩
  · rw [hWord]
    rfl
  · rw [div_lt_one (by positivity)]
    exact_mod_cast (outputs next (ofSeed seed) n).toNat_lt

example : (List.range 3).map (outputs next (ofSeed 42)) = [2581720956, 1925393290, 3661312704] := by
  decide

end Generator

end Radioplay
