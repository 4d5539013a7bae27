import Radioplay.Library
import Radioplay.Proofs.Number.Exact
import Radioplay.Proofs.Number.Single
import Radioplay.Proofs.Sound.Signed

/-! Only the first channel of a clip is heard. For each frame there is one number, the frame's first
sample rounded to a single word and divided by full loudness; it is a single word too, a double
holds it exactly, and it is never beyond full loudness. So clips that agree in rate, width and first
samples have the same loudness and the same quiet points, whatever is in their other channels and
however many those are. -/

namespace Radioplay.Sound

namespace Clip

open Quantity

/-- Samples of one, two or four bytes with a sign, frame by frame and in a frame channel by
channel. -/
structure IsInterleaved (c : Clip) : Prop where
  channels_pos : 0 < c.channels
  whole : c.channels ∣ c.samples.size
  width : c.width = 1 ∨ c.width = 2 ∨ c.width = 4
  fits : ∀ x ∈ c.samples, Fits c.width x

/-- The rate, the width and the first sample of every frame are the same. -/
structure SharesFirst (c d : Clip) : Prop where
  rate_eq : d.rate = c.rate
  width_eq : d.width = c.width
  frames_eq : d.frames = c.frames
  first_eq : ∀ i < c.frames, d.samples[i * d.channels]? = c.samples[i * c.channels]?

/-- One number for each frame: its first sample, rounded to a single word, over full loudness. That
quotient is a single word itself. -/
structure HearsFirst (c : Clip) (levels : List ℚ) : Prop where
  length_eq : levels.length = c.frames
  level_eq : ∀ i < c.frames, ∃ (x : ℤ) (y : ℚ), c.samples[i * c.channels]? = some x ∧
    Single.IsNearest x y ∧ levels[i]? = some (y / 2 ^ (8 * c.width - 1))
  isValue : ∀ x ∈ levels, Single.IsValue x
  within : ∀ x ∈ levels, -1 ≤ x ∧ x ≤ 1

/-- The quiet points of a clip. -/
def quietPoints {α : Type} [Quantity α] (c : Clip) (windowMs threshold : Value) :
    Except Fault (List α) := do
  let loudness ← c.loudness
  Energy.profile loudness (.int c.rate) windowMs threshold

/-- What a library finds in a file are the quiet points of the decoded clip. -/
theorem analyze_eq_quietPoints {α : Type} [Quantity α] (library : Library) {raw : Wave.Raw}
    {c : Clip} (h : raw.clip = .ok c) :
    (library.analyze raw : Except Fault (List α)) =
      c.quietPoints library.windowMs library.threshold := by
  rw [Library.analyze, h]
  rfl

variable {c d : Clip}

/-! ### Frames -/

theorem IsInterleaved.width_le (h : c.IsInterleaved) : c.width ≤ 4 := by
  have hWidth := h.width
  omega

theorem isWhole_iff (hChannels : 0 < c.channels) :
    c.isWhole = true ↔ c.channels ∣ c.samples.size := by
  rw [isWhole, Bool.or_eq_true, decide_eq_true_iff, beq_iff_eq, ← Nat.dvd_iff_mod_eq_zero]
  constructor
  · rintro (hSingle | hWhole)
    · exact (show c.channels = 1 by omega) ▸ one_dvd _
    · exact hWhole
  · exact .inr

/-- A clip is heard just when its last frame is whole too. -/
theorem exists_loudness_iff {α : Type} [Quantity α] (hChannels : 0 < c.channels) :
    (∃ levels : List α, c.loudness = .ok levels) ↔ c.channels ∣ c.samples.size := by
  rw [← isWhole_iff hChannels]
  constructor
  · rintro ⟨levels, hLevels⟩
    by_contra hBroken
    rw [loudness, if_neg hBroken] at hLevels
    cases hLevels
  · intro hWhole
    exact ⟨_, if_pos hWhole⟩

theorem IsInterleaved.isWhole (h : c.IsInterleaved) : c.isWhole = true :=
  (isWhole_iff h.channels_pos).mpr h.whole

/-- Whatever can be decoded to whole frames is interleaved. -/
theorem isInterleaved_of_clip {raw : Wave.Raw} (h : raw.clip = .ok c) (hChannels : 0 < c.channels)
    (hWhole : c.channels ∣ c.samples.size) : c.IsInterleaved :=
  ⟨hChannels, hWhole, (Wave.Raw.clip_fits h).1, (Wave.Raw.clip_fits h).2⟩

theorem getElem?_first (hChannels : 0 < c.channels) {i : ℕ} (hi : i < c.frames) :
    c.samples[i * c.channels]? = some (c.firstSample i) := by
  have hFrames : c.frames * c.channels ≤ c.samples.size := Nat.div_mul_le_self _ _
  have hIndex : i * c.channels < c.frames * c.channels := Nat.mul_lt_mul_of_pos_right hi hChannels
  rw [firstSample, Array.getD, dif_pos (by omega)]
  exact Array.getElem?_eq_getElem _

theorem IsInterleaved.firstSample_fits (h : c.IsInterleaved) {i : ℕ} (hi : i < c.frames) :
    Fits c.width (c.firstSample i) :=
  h.fits _ (Array.mem_of_getElem? (getElem?_first h.channels_pos hi))

/-! ### Loudness -/

theorem Fits.isNearest {width : ℕ} {x : ℤ} (h : Fits width x) (hWidth : width ≤ 4) :
    Single.IsNearest x (roundSingle x) := by
  obtain ⟨hLower, hUpper⟩ := fits_iff.mp h
  apply roundSingle_isNearest
  calc |x| ≤ 2 ^ (8 * width - 1) := abs_le.mpr ⟨hLower, hUpper.le⟩
    _ ≤ 2 ^ 31 := pow_le_pow_right₀ (by norm_num) (by omega)
    _ < 2 ^ 127 := by norm_num

/-- Rounding takes no sample beyond full loudness. -/
theorem Fits.abs_roundSingle_le {width : ℕ} {x : ℤ} (h : Fits width x) (hWidth : width ≤ 4) :
    |roundSingle x| ≤ 2 ^ (8 * width - 1) := by
  have hNearest := h.isNearest hWidth
  have hFull := Single.isValue_two_pow (show 8 * width - 1 ≤ 127 by omega)
  obtain ⟨hLower, hUpper⟩ := fits_iff.mp h
  have hLe : (roundSingle x : ℚ) ≤ 2 ^ (8 * width - 1) :=
    hNearest.le hFull (by exact_mod_cast hUpper.le)
  have hGe : -2 ^ (8 * width - 1) ≤ (roundSingle x : ℚ) :=
    hNearest.ge hFull.neg (by exact_mod_cast hLower)
  exact abs_le.mpr ⟨by exact_mod_cast hGe, by exact_mod_cast hLe⟩

theorem level_eq_div (c : Clip) (i : ℕ) :
    c.level i = roundSingle (c.firstSample i) / 2 ^ (8 * c.width - 1) := by
  rw [level, fullScale, Nat.cast_pow, Nat.cast_ofNat]

theorem mem_levels {x : ℚ} : x ∈ c.levels ↔ ∃ i < c.frames, c.level i = x := by
  simp [levels]

theorem IsInterleaved.hearsFirst (h : c.IsInterleaved) : c.HearsFirst c.levels where
  length_eq := c.levels_length
  level_eq i hi := by
    refine ⟨c.firstSample i, roundSingle (c.firstSample i), getElem?_first h.channels_pos hi,
      (h.firstSample_fits hi).isNearest h.width_le, ?_⟩
    rw [levels, List.getElem?_map, List.getElem?_range hi, Option.map_some, level_eq_div]
  isValue x hx := by
    obtain ⟨i, hi, rfl⟩ := mem_levels.mp hx
    have hNearest := (h.firstSample_fits hi).isNearest h.width_le
    have hWidth := h.width_le
    rw [level_eq_div]
    refine hNearest.isValue.div_two_pow (by omega) ?_
    -- A rounded sample is a whole number, so none is so small that dividing it loses a digit.
    rcases eq_or_ne (roundSingle (c.firstSample i)) 0 with hZero | hNe
    · exact .inl (by exact_mod_cast hZero)
    · exact .inr (by exact_mod_cast Int.one_le_abs hNe)
  within x hx := by
    obtain ⟨i, hi, rfl⟩ := mem_levels.mp hx
    have hFull : (0 : ℚ) < 2 ^ (8 * c.width - 1) := by positivity
    have hSize := abs_le.mp ((h.firstSample_fits hi).abs_roundSingle_le h.width_le)
    rw [level_eq_div, le_div_iff₀ hFull, div_le_iff₀ hFull, one_mul, neg_one_mul]
    exact ⟨by exact_mod_cast hSize.1, by exact_mod_cast hSize.2⟩

/-- Doubles hold the loudness exactly. -/
theorem IsInterleaved.toRat_loudness (h : c.IsInterleaved) :
    ∃ doubles : List Number, c.loudness = .ok doubles ∧
      doubles.map Number.toRat = c.levels.map .ok := by
  refine ⟨_, if_pos h.isWhole, ?_⟩
  rw [Clip.firstChannel_eq h.channels_pos h.isWhole, levels, List.map_map, List.map_map,
    List.map_map]
  apply List.map_congr_left
  intro i hi
  have hWidth := h.width_le
  have hSize := (h.firstSample_fits (List.mem_range.mp hi)).abs_roundSingle_le hWidth
  have hFull : (2 : ℤ) ^ (8 * c.width - 1) ≤ 2 ^ 31 :=
    pow_le_pow_right₀ (by norm_num) (by omega)
  have hBits : (roundSingle (c.firstSample i)).natAbs < 2 ^ 53 := by
    rw [Int.abs_eq_natAbs] at hSize
    omega
  rw [Function.comp_apply, Function.comp_apply, Function.comp_apply, level_eq_div]
  exact Binary64.toRat_ratio hBits (by omega)

/-! ### Clips that share their first channel -/

theorem SharesFirst.firstChannel_eq (h : c.SharesFirst d) (hc : c.IsInterleaved)
    (hd : d.IsInterleaved) : d.firstChannel = c.firstChannel := by
  rw [Clip.firstChannel_eq hc.channels_pos hc.isWhole,
    Clip.firstChannel_eq hd.channels_pos hd.isWhole, h.frames_eq]
  apply List.map_congr_left
  intro i hi
  have hFrame : i < c.frames := List.mem_range.mp hi
  have hFirst := h.first_eq i hFrame
  rw [getElem?_first hc.channels_pos hFrame, getElem?_first hd.channels_pos (h.frames_eq ▸ hFrame)]
    at hFirst
  exact Option.some.inj hFirst

section

variable {α : Type} [Quantity α]

theorem SharesFirst.loudness_eq (h : c.SharesFirst d) (hc : c.IsInterleaved)
    (hd : d.IsInterleaved) : (d.loudness : Except Fault (List α)) = c.loudness := by
  rw [loudness, loudness, if_pos hc.isWhole, if_pos hd.isWhole, h.firstChannel_eq hc hd, fullScale,
    fullScale, h.width_eq]

theorem SharesFirst.quietPoints_eq (h : c.SharesFirst d) (hc : c.IsInterleaved)
    (hd : d.IsInterleaved) (windowMs threshold : Value) :
    (d.quietPoints windowMs threshold : Except Fault (List α)) =
      c.quietPoints windowMs threshold := by
  rw [quietPoints, quietPoints, h.loudness_eq hc hd, h.rate_eq]

end

/-- A clip's loudness is that of its first channel, never fails, and is held by doubles exactly. A
clip that shares the first channel has the same loudness and the same quiet points, also where a
library finds them in a file. -/
theorem loudness_hearsFirst (hc : c.IsInterleaved) :
    (∃ levels : List ℚ, c.loudness = .ok levels ∧ c.HearsFirst levels ∧
      ∃ doubles : List Number, c.loudness = .ok doubles ∧
        doubles.map Number.toRat = levels.map .ok) ∧
    ∀ d : Clip, d.IsInterleaved → c.SharesFirst d → ∀ (α : Type) [Quantity α],
      (d.loudness : Except Fault (List α)) = c.loudness ∧
      (∀ windowMs threshold : Value, (d.quietPoints windowMs threshold : Except Fault (List α)) =
        c.quietPoints windowMs threshold) ∧
      ∀ (library library' : Library) (raw raw' : Wave.Raw),
        library'.windowMs = library.windowMs → library'.threshold = library.threshold →
        raw.clip = .ok c → raw'.clip = .ok d →
          (library'.analyze raw' : Except Fault (List α)) = library.analyze raw := by
  constructor
  · obtain ⟨levels, hLevels⟩ := (exists_loudness_iff (α := ℚ) hc.channels_pos).mpr hc.whole
    obtain rfl := loudness_rat hc.channels_pos hLevels
    exact ⟨c.levels, hLevels, hc.hearsFirst, hc.toRat_loudness⟩
  · intro d hd hShares α _
    refine ⟨hShares.loudness_eq hc hd, hShares.quietPoints_eq hc hd, ?_⟩
    intro library library' raw raw' hWindow hThreshold hRaw hRaw'
    rw [analyze_eq_quietPoints library' hRaw', analyze_eq_quietPoints library hRaw, hWindow,
      hThreshold]
    exact hShares.quietPoints_eq hc hd _ _

/-! A file of two frames in two channels, the first at full loudness up and then down, and a file of
the first channel alone. -/

def blareFile : Wave.Raw :=
  ⟨2, 1000, 4, [0xFF, 0xFF, 0xFF, 0x7F, 5, 0, 0, 0, 0, 0, 0, 0x80, 7, 0, 0, 0]⟩

def soloFile : Wave.Raw := ⟨1, 1000, 4, [0xFF, 0xFF, 0xFF, 0x7F, 0, 0, 0, 0x80]⟩

def blare : Clip := ⟨1000, 2, 4, #[2147483647, 5, -2147483648, 7]⟩

def solo : Clip := ⟨1000, 1, 4, #[2147483647, -2147483648]⟩

theorem blare_clip : blareFile.clip = .ok blare := by decide +kernel

theorem solo_clip : soloFile.clip = .ok solo := by decide +kernel

/-- The largest sample is rounded up to full loudness, and the other channel is not heard. -/
theorem blare_hearsFirst :
    blare.IsInterleaved ∧ solo.IsInterleaved ∧ blare.SharesFirst solo ∧
      blare.loudness = .ok [(1 : ℚ), -1] ∧ blare.HearsFirst [1, -1] ∧
      (solo.loudness : Except Fault (List Number)) = blare.loudness ∧
      (({} : Library).analyze soloFile : Except Fault (List Number)) =
        ({} : Library).analyze blareFile := by
  have hBlare : blare.IsInterleaved := isInterleaved_of_clip blare_clip (by decide) (by decide)
  have hSolo : solo.IsInterleaved := isInterleaved_of_clip solo_clip (by decide) (by decide)
  have hShares : blare.SharesFirst solo := ⟨rfl, rfl, rfl, by decide⟩
  have hLevels : blare.loudness = .ok [(1 : ℚ), -1] := by decide +kernel
  obtain ⟨⟨levels, hLoudness, hHears, -⟩, hSame⟩ := loudness_hearsFirst hBlare
  obtain ⟨hEq, -, hFiles⟩ := hSame solo hSolo hShares Number
  rw [hLevels] at hLoudness
  cases hLoudness
  exact ⟨hBlare, hSolo, hShares, hLevels, hHears, hEq,
    hFiles {} {} blareFile soloFile rfl rfl blare_clip solo_clip⟩

end Clip

end Radioplay.Sound
