import Radioplay.Proofs.Sound.Channel

/-! Samples keep within their width. Bytes are put together to signed numbers of as many bytes, and
a decoded clip holds nothing that its width could not. -/

namespace Radioplay.Sound

/-- Is a sample a signed number of `width` bytes? -/
def Clip.Fits (width : ℕ) (x : ℤ) : Prop := Clip.lowest width ≤ x ∧ x ≤ Clip.highest width

theorem Clip.fits_iff {width : ℕ} {x : ℤ} :
    Clip.Fits width x ↔ -2 ^ (8 * width - 1) ≤ x ∧ x < 2 ^ (8 * width - 1) := by
  rw [Fits, lowest, highest]
  omega

namespace Wave

variable {width : ℕ}

/-- Half of the numbers of `width` bytes are read as negative ones. -/
theorem signed_fits (hWidth : 0 < width) {n : ℕ} (hn : n < 256 ^ width) :
    Clip.Fits width (signed width n) := by
  obtain ⟨k, hk⟩ : ∃ k, 8 * width = k + 1 := ⟨8 * width - 1, by omega⟩
  have hSize : 256 ^ width = 2 ^ k + 2 ^ k := by
    rw [show 256 = 2 ^ 8 from rfl, ← pow_mul, hk, pow_succ, Nat.mul_two]
  have hPower : (2 : ℤ) ^ (k + 1) = 2 ^ k + 2 ^ k := by rw [pow_succ, mul_two]
  have hCast : ((2 ^ k : ℕ) : ℤ) = 2 ^ k := by push_cast; rfl
  rw [Clip.fits_iff, signed, hk, Nat.add_sub_cancel]
  split
  · rename_i hUpper
    rw [hPower]
    omega
  · rename_i hLower
    omega

/-- Taking bytes in: what has been put together of a sample is a number of as many bytes as have
been taken into it, and whole samples fit. -/
theorem takeByte_fits (bytes : List UInt8) {count value : ℕ} {done : List ℤ}
    (hCount : count < width) (hValue : value < 256 ^ count)
    (hDone : ∀ x ∈ done, Clip.Fits width x) :
    ∀ x ∈ (bytes.foldl (takeByte width) (count, value, done)).2.2, Clip.Fits width x := by
  induction bytes generalizing count value done with
  | nil => exact hDone
  | cons b rest ih =>
    have hByte : b.toNat * 256 ^ count ≤ 255 * 256 ^ count :=
      Nat.mul_le_mul_right _ (Nat.le_of_lt_succ b.toNat_lt)
    have hNext : value + b.toNat * 256 ^ count < 256 ^ (count + 1) := by
      rw [pow_succ]
      omega
    rw [List.foldl_cons, takeByte]
    split
    · rename_i hFull
      refine ih (by omega) (by norm_num) fun x hx => ?_
      rcases List.mem_cons.mp hx with rfl | hx
      · exact signed_fits (by omega) (hFull ▸ hNext)
      · exact hDone x hx
    · exact ih (by omega) hNext hDone

theorem samplesOf_fits (hWidth : 0 < width) (bytes : List UInt8) :
    ∀ x ∈ samplesOf width bytes, Clip.Fits width x := by
  intro x hx
  exact takeByte_fits bytes hWidth (by norm_num) (by simp) x (List.mem_reverse.mp hx)

/-- A decoded clip has samples of one, two or four bytes, and all of them fit. -/
theorem Raw.clip_fits {r : Raw} {c : Clip} (h : r.clip = .ok c) :
    (c.width = 1 ∨ c.width = 2 ∨ c.width = 4) ∧ ∀ x ∈ c.samples, Clip.Fits c.width x := by
  obtain ⟨hWidth, rfl⟩ := clip_eq_ok h
  refine ⟨hWidth, fun x hx => ?_⟩
  exact samplesOf_fits (show 0 < r.width by omega) r.bytes x (List.mem_toArray.mp hx)

end Wave

end Radioplay.Sound
