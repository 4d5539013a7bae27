import Mathlib.Algebra.Order.Floor.Div
import Mathlib.Algebra.Order.Floor.Semifield
import Mathlib.Data.FinEnum
import Mathlib.Data.Rat.Floor
import Mathlib.Order.Interval.Finset.Nat
import Radioplay.Proofs.Rational

/-! Fair choices, over the rationals. A drawn word scales a number of places: the words that lead to
one place are those between two quotients, rounded up, that lie `2 ^ 32 / count` apart. So each
place has as many words as any other, but for one. -/

namespace Radioplay.Generator

open Finset Quantity

/-- A number of words is an even share of all, rounded down or up. -/
def IsShare (count n : ℕ) : Prop := n = ⌊(2 ^ 32 / count : ℚ)⌋₊ ∨ n = ⌈(2 ^ 32 / count : ℚ)⌉₊

/-! ### Places -/

theorem place_eq_floor (count : ℕ) (m : UInt32) : (place count m : ℤ) = ⌊(unit m * count : ℚ)⌋ := by
  have hPart : (unit m * count : ℚ) = (m.toNat * count : ℕ) / (2 ^ 32 : ℕ) := by
    rw [unit_rat]
    push_cast
    ring
  rw [hPart, Rat.floor_natCast_div_natCast]
  rfl

theorem place_lt {count : ℕ} (hCount : 0 < count) (m : UInt32) : place count m < count := by
  rw [place, Nat.div_lt_iff_lt_mul (Nat.two_pow_pos 32), mul_comm]
  exact Nat.mul_lt_mul_of_pos_left m.toNat_lt hCount

/-- The words that lead to a place are a range of them. -/
theorem place_eq_iff {count i : ℕ} (hCount : 0 < count) (m : UInt32) :
    place count m = i ↔
      (i * 2 ^ 32) ⌈/⌉ count ≤ m.toNat ∧ m.toNat < ((i + 1) * 2 ^ 32) ⌈/⌉ count := by
  rw [← not_le (b := m.toNat), ceilDiv_le_iff_le_mul hCount, ceilDiv_le_iff_le_mul hCount,
    mul_comm count, not_le, place, Nat.div_eq_iff (Nat.two_pow_pos 32)]
  omega

theorem card_words (a : ℕ) {b : ℕ} (hb : b ≤ 2 ^ 32) :
    #{m : UInt32 | a ≤ m.toNat ∧ m.toNat < b} = b - a := by
  have hWord {n : ℕ} (hn : n ∈ Ico a b) : (UInt32.ofNat n).toNat = n := by
    rw [UInt32.toNat_ofNat', Nat.mod_eq_of_lt ((mem_Ico.mp hn).2.trans_le hb)]
  rw [← Nat.card_Ico]
  refine card_nbij' UInt32.toNat UInt32.ofNat ?_ ?_ (fun m _ => UInt32.ofNat_toNat)
    (fun n hn => hWord hn)
  · intro m hm
    simpa using hm
  · intro n hn
    have hRange := mem_Ico.mp hn
    rw [← hWord hn] at hRange
    simpa using hRange

theorem ceil_div_eq {count : ℕ} (hCount : 0 < count) (n : ℕ) :
    ⌈(n / count : ℚ)⌉₊ = n ⌈/⌉ count := by
  refine eq_of_forall_ge_iff fun k => ?_
  have hPos : (0 : ℚ) < count := by exact_mod_cast hCount
  rw [Nat.ceil_le, div_le_iff₀' hPos, ceilDiv_le_iff_le_mul hCount]
  exact_mod_cast Iff.rfl

theorem isShare_iff {count n : ℕ} (hCount : 0 < count) :
    IsShare count n ↔ n = 2 ^ 32 / count ∨ n = 2 ^ 32 ⌈/⌉ count := by
  have hFloor : ⌊(2 ^ 32 / count : ℚ)⌋₊ = 2 ^ 32 / count := by
    exact_mod_cast Nat.floor_div_eq_div (K := ℚ) (2 ^ 32) count
  have hCeil : ⌈(2 ^ 32 / count : ℚ)⌉₊ = 2 ^ 32 ⌈/⌉ count := by
    exact_mod_cast ceil_div_eq hCount (2 ^ 32)
  rw [IsShare, hFloor, hCeil]

/-- Quotients that are rounded up lie a share apart. -/
theorem ceilDiv_add_sub {count : ℕ} (hCount : 0 < count) (a n : ℕ) :
    (a + n) ⌈/⌉ count - a ⌈/⌉ count = n / count ∨
      (a + n) ⌈/⌉ count - a ⌈/⌉ count = n ⌈/⌉ count := by
  obtain ⟨top, rfl⟩ : ∃ top, count = top + 1 := ⟨count - 1, by omega⟩
  simp only [Nat.ceilDiv_eq_add_pred_div, ← Nat.add_assoc, Nat.add_sub_cancel]
  rw [Nat.add_right_comm a n top, Nat.add_div (a := a + top) hCount]
  split
  · -- A carry takes a remainder, which rounding up counts as one more.
    rename_i hCarry
    have hRemainder : 0 < n % (top + 1) := by
      have hLess := Nat.mod_lt (a + top) hCount
      omega
    refine .inr ?_
    rw [Nat.add_div (a := n) hCount, Nat.mod_eq_of_lt (Nat.lt_succ_self top),
      Nat.div_eq_of_lt (Nat.lt_succ_self top), if_pos (by omega), Nat.add_assoc,
      Nat.add_sub_cancel_left]
  · refine .inl ?_
    rw [Nat.add_zero, Nat.add_sub_cancel_left]

/-- Each place has an even share of the words. -/
theorem card_place {count i : ℕ} (hi : i < count) :
    IsShare count #{m : UInt32 | place count m = i} := by
  have hCount : 0 < count := Nat.zero_lt_of_lt hi
  have hTop : ((i + 1) * 2 ^ 32) ⌈/⌉ count ≤ 2 ^ 32 := by
    rw [ceilDiv_le_iff_le_mul hCount]
    exact Nat.mul_le_mul_right _ hi
  simp only [place_eq_iff hCount]
  rw [card_words _ hTop, isShare_iff hCount, Nat.succ_mul]
  exact ceilDiv_add_sub hCount _ _

/-! ### Whole numbers between two bounds -/

/-- A choice between two whole numbers is a choice among as many places as there are numbers. -/
theorem wholeBetween_place {lo hi : ℤ} (h : lo ≤ hi) (m : UInt32) :
    wholeBetween (lo : ℚ) hi m = .ok (lo + place (hi - lo + 1).toNat m) := by
  obtain ⟨count, hCount⟩ := Int.eq_ofNat_of_zero_le (by omega : 0 ≤ hi - lo + 1)
  have hWidth : (hi : ℚ) - lo + 1 = count := by exact_mod_cast hCount
  have hFloor : ⌊(lo + unit m * count : ℚ)⌋ = lo + place count m := by
    rw [Int.floor_intCast_add, place_eq_floor]
  rw [hCount, Int.toNat_natCast]
  simp only [wholeBetween, sub_rat, ofInt_rat, add_rat, mul_rat, floor_rat, ok_bind, Int.cast_one,
    hWidth]
  exact congrArg Except.ok hFloor

/-- The numbers between two bounds, both included, are drawn alike: whatever the word, one of them
comes out, and each comes of an even share of the words. -/
theorem wholeBetween_fair {lo hi : ℤ} (h : lo ≤ hi) :
    (∀ m, ∃ v, wholeBetween (lo : ℚ) hi m = .ok v ∧ lo ≤ v ∧ v ≤ hi) ∧
      ∀ v, lo ≤ v → v ≤ hi →
        IsShare (hi - lo + 1).toNat #{m : UInt32 | wholeBetween (lo : ℚ) hi m = .ok v} := by
  have hCount : 0 < (hi - lo + 1).toNat := by omega
  constructor
  · intro m
    have hPlace := place_lt hCount m
    exact ⟨_, wholeBetween_place h m, by omega, by omega⟩
  · intro v hLo hHi
    have hWords (m : UInt32) : wholeBetween (lo : ℚ) hi m = .ok v ↔
        place (hi - lo + 1).toNat m = (v - lo).toNat := by
      rw [wholeBetween_place h, Except.ok.injEq]
      omega
    simp only [hWords]
    exact card_place (by omega)

/-! ### Items -/

theorem choose_place {α : Type} {items : List α} (h : items ≠ []) (g : Generator) :
    ∃ hPlace : place items.length g.next.1 < items.length,
      choose items g = (some items[place items.length g.next.1], g.next.2) := by
  have hPlace := place_lt (List.length_pos_iff.mpr h) g.next.1
  refine ⟨hPlace, ?_⟩
  have hChosen : choose items g = (items[place items.length g.next.1]?, g.next.2) :=
    if_neg (by simpa using h)
  rw [hChosen, List.getElem?_eq_getElem hPlace]

/-- Both choices are in range and even. Between two whole numbers, whatever the word, a number not
outside them comes out, and each comes of an even share of all words. Among items, one draw leads to
a place among them, its fraction of their number rounded down, and each place has an even share;
where there are no items, nothing is drawn. -/
theorem choices_fair {lo hi : ℤ} (hBounds : lo ≤ hi) {α : Type} {items : List α}
    (hItems : items ≠ []) :
    ((∀ m, ∃ v, wholeBetween (lo : ℚ) hi m = .ok v ∧ lo ≤ v ∧ v ≤ hi) ∧
      ∀ v, lo ≤ v → v ≤ hi →
        IsShare (hi - lo + 1).toNat #{m : UInt32 | wholeBetween (lo : ℚ) hi m = .ok v}) ∧
    (∀ g : Generator, ∃ hPlace : place items.length g.next.1 < items.length,
      choose items g = (some items[place items.length g.next.1], g.next.2)) ∧
    (∀ m, (place items.length m : ℤ) = ⌊(unit m * items.length : ℚ)⌋) ∧
    (∀ i < items.length, IsShare items.length #{m : UInt32 | place items.length m = i}) ∧
    ∀ g : Generator, choose ([] : List α) g = (none, g) :=
  ⟨wholeBetween_fair hBounds, choose_place hItems, place_eq_floor _, fun _ hi => card_place hi,
    fun _ => rfl⟩

/-- A third of the words, rounded, leads to the middle one of three numbers. -/
theorem choices_fair_three :
    (-1 : ℤ) ≤ 1 ∧ ["a", "b", "c"] ≠ [] ∧
      (∃ v, wholeBetween ((-1 : ℤ) : ℚ) (1 : ℤ) (ofSeed 5).next.1 = .ok v ∧ -1 ≤ v ∧ v ≤ 1) ∧
      IsShare 3 #{m : UInt32 | wholeBetween ((-1 : ℤ) : ℚ) (1 : ℤ) m = .ok 0} ∧
      choose ["a", "b", "c"] (ofSeed 5) = (some "c", (ofSeed 5).next.2) ∧
      (2 : ℤ) = ⌊(unit (ofSeed 5).next.1 * (3 : ℕ) : ℚ)⌋ ∧
      IsShare 3 #{m : UInt32 | place 3 m = 2} ∧
      choose ([] : List String) (ofSeed 5) = (none, ofSeed 5) := by
  have hBounds : (-1 : ℤ) ≤ 1 := by decide
  have hItems : ["a", "b", "c"] ≠ [] := by decide
  obtain ⟨⟨hRange, hNumbers⟩, hChosen, hFloor, hPlaces, hNone⟩ := choices_fair hBounds hItems
  obtain ⟨hPlace, hThird⟩ := hChosen (ofSeed 5)
  exact ⟨hBounds, hItems, hRange _, hNumbers 0 (by decide) (by decide), hThird,
    hFloor (ofSeed 5).next.1, hPlaces 2 (by decide), hNone _⟩

end Radioplay.Generator
