import Mathlib.Algebra.Order.Group.Nat
import Radioplay.Proofs.Rational
import Radioplay.Sound.Raw

/-! The first channel of a clip, frame by frame. A clip has as many frames as there are whole ones
in the bytes it is made of, so the length that is told by bytes and what is heard agree. -/

namespace Radioplay.Sound

namespace Wave

/-- Taking bytes in: the samples put together and the bytes of the next one account for them all. -/
theorem takeByte_length {width : ℕ} (bytes : List UInt8) {count value : ℕ} {done : List ℤ}
    (hCount : count < width) :
    (bytes.foldl (takeByte width) (count, value, done)).2.2.length =
      done.length + (count + bytes.length) / width := by
  induction bytes generalizing count value done with
  | nil => rw [List.foldl_nil, List.length_nil, Nat.add_zero, Nat.div_eq_of_lt hCount, Nat.add_zero]
  | cons b rest ih =>
    rw [List.foldl_cons, takeByte, List.length_cons]
    split
    · rename_i hFull
      rw [ih (by omega), List.length_cons, show count + (rest.length + 1) = 0 + rest.length + width
        by omega, Nat.add_div_right _ (by omega)]
      omega
    · rw [ih (by omega), show count + 1 + rest.length = count + (rest.length + 1) by omega]

theorem samplesOf_length {width : ℕ} (hWidth : 0 < width) (bytes : List UInt8) :
    (samplesOf width bytes).length = bytes.length / width := by
  rw [samplesOf, List.length_reverse, takeByte_length bytes hWidth, List.length_nil, Nat.zero_add,
    Nat.zero_add]

namespace Raw

theorem width_of_isNumberWidth {width : ℕ} (h : Clip.isNumberWidth width = true) :
    width = 1 ∨ width = 2 ∨ width = 4 := by
  simp only [Clip.isNumberWidth, Bool.or_eq_true, beq_iff_eq] at h
  omega

/-- Whole samples of a width that there are numbers for become a clip. -/
theorem clip_eq_ok {r : Raw} {c : Clip} (h : r.clip = .ok c) :
    (r.width = 1 ∨ r.width = 2 ∨ r.width = 4) ∧
      c = ⟨r.rate, r.channels, r.width, (samplesOf r.width r.bytes).toArray⟩ := by
  unfold clip at h
  split at h
  · cases h
  · rename_i hNumber
    split at h
    · cases h
    · cases h
      exact ⟨width_of_isNumberWidth (by simpa using hNumber), rfl⟩

/-- A clip has the form of what was decoded, and a sample for every `width` bytes. -/
theorem clip_ok {r : Raw} {c : Clip} (h : r.clip = .ok c) :
    c.rate = r.rate ∧ c.channels = r.channels ∧ c.samples.size = r.bytes.length / r.width := by
  obtain ⟨hWidth, rfl⟩ := clip_eq_ok h
  refine ⟨rfl, rfl, ?_⟩
  rw [List.size_toArray, samplesOf_length (by omega)]

theorem frames_eq {r : Raw} {c : Clip} {n : ℕ} (hClip : r.clip = .ok c)
    (hFrames : r.frames = .ok n) :
    0 < c.channels ∧ n = c.frames := by
  obtain ⟨-, hChannels, hSize⟩ := clip_ok hClip
  rw [frames] at hFrames
  split at hFrames
  · cases hFrames
  · rename_i hForm
    cases hFrames
    refine ⟨?_, ?_⟩
    · rw [hChannels]
      exact Nat.pos_of_ne_zero fun hZero => hForm (by rw [hZero, Nat.zero_mul])
    · rw [Clip.frames, hSize, hChannels, Nat.div_div_eq_div_mul, Nat.mul_comm]

/-- The length told lasts as long as the clip's frames at its rate. -/
theorem seconds_rat {r : Raw} {c : Clip} {x : ℚ} (hClip : r.clip = .ok c) (hRate : 0 < c.rate)
    (hSeconds : r.seconds = .ok x) : 0 < c.channels ∧ x = c.frames / c.rate := by
  obtain ⟨hSame, -, -⟩ := clip_ok hClip
  rw [seconds, if_neg (by omega)] at hSeconds
  obtain ⟨n, hFrames, hEq⟩ := bind_eq_ok.mp hSeconds
  obtain ⟨hChannels, rfl⟩ := frames_eq hClip hFrames
  refine ⟨hChannels, ?_⟩
  rw [← pure_eq_ok.mp hEq, hSame, Quantity.ratio_rat, Int.cast_natCast]

end Raw

end Wave

namespace Clip

/-- The multiples of `k` among the numbers below `n * k`. -/
theorem filter_range_mul {k : ℕ} (hk : 0 < k) (n : ℕ) :
    ((List.range (n * k)).filter fun i => i % k == 0) = (List.range n).map fun i => i * k := by
  induction n with
  | zero => simp
  | succ n ih =>
    have hLast : ((List.range k).map fun i => n * k + i).filter (fun i => i % k == 0) =
        [n * k] := by
      obtain ⟨j, rfl⟩ : ∃ j, k = j + 1 := ⟨k - 1, by omega⟩
      rw [List.range_succ_eq_map, List.map_cons, List.filter_cons_of_pos (by simp), Nat.add_zero]
      congr 1
      apply List.filter_eq_nil_iff.mpr
      intro i hi
      simp only [List.mem_map, List.mem_range] at hi
      obtain ⟨_, ⟨m, hm, rfl⟩, rfl⟩ := hi
      simp [Nat.mod_eq_of_lt (show m + 1 < j + 1 by omega)]
    rw [Nat.succ_mul, List.range_add, List.filter_append, ih, hLast, List.range_succ,
      List.map_append, List.map_singleton]

def firstSample (c : Clip) (i : ℕ) : ℤ := c.samples.getD (i * c.channels) 0

theorem zipIdx_samples (c : Clip) : c.samples.toList.zipIdx =
    (List.range c.samples.size).map fun i => (c.samples.getD i 0, i) := by
  apply List.ext_getElem (by simp)
  intro i hi _
  have hSize : i < c.samples.size := by simpa using hi
  simp [Array.getD, hSize]

theorem firstChannel_eq {c : Clip} (hChannels : 0 < c.channels) (hWhole : c.isWhole = true) :
    c.firstChannel = (List.range c.frames).map c.firstSample := by
  have hSamples : c.samples.toList = c.samples.toList.zipIdx.map fun p => p.1 := by simp
  unfold firstChannel
  split
  · have hOne : c.channels = 1 := by omega
    rw [hSamples, zipIdx_samples, List.map_map, frames, hOne, Nat.div_one]
    apply List.map_congr_left
    intro i _
    rw [Function.comp_apply, firstSample, hOne, Nat.mul_one]
  · rename_i hMany
    have hMod : c.samples.size % c.channels = 0 := by simpa [isWhole, hMany] using hWhole
    have hSize : c.samples.size = c.frames * c.channels :=
      (Nat.div_mul_cancel (Nat.dvd_of_mod_eq_zero hMod)).symm
    rw [zipIdx_samples, hSize, List.filter_map, List.map_map]
    show ((List.range (c.frames * c.channels)).filter fun i => i % c.channels == 0).map
      (fun i => c.samples.getD i 0) = _
    rw [filter_range_mul hChannels, List.map_map]
    rfl

/-- The loudness of the first channel in a frame, as a fraction of full loudness. -/
def level (c : Clip) (i : ℕ) : ℚ := roundSingle (c.firstSample i) / c.fullScale

/-- The first channel as fractions of full loudness, frame by frame. -/
def levels (c : Clip) : List ℚ := (List.range c.frames).map c.level

@[simp] theorem levels_length (c : Clip) : c.levels.length = c.frames := by
  rw [levels, List.length_map, List.length_range]

theorem loudness_rat {c : Clip} {loudness : List ℚ} (hChannels : 0 < c.channels)
    (h : c.loudness = .ok loudness) : loudness = c.levels := by
  unfold Clip.loudness at h
  split at h
  · rename_i hWhole
    cases h
    rw [firstChannel_eq hChannels hWhole, List.map_map, levels]
    apply List.map_congr_left
    intro i _
    rw [Function.comp_apply, Quantity.ratio_rat, level]
  · cases h

end Clip

end Radioplay.Sound
