import Radioplay.Command.Run
import Radioplay.Proofs.Energy.Profile
import Radioplay.Proofs.Library.Kept
import Radioplay.Proofs.Sound.Channel
import Radioplay.Proofs.Window.Cut

/-! Where the voices of an episode are cut, from the decoded files on, over the rationals. A library
that starts empty reads and analyzes each clip. A voice plays a stretch inside its clip: it starts
at its draw or at a quiet window, and it ends where it was to end, at a quiet window, after the
shortest stretch or at the end of the clip. -/

namespace Radioplay

open Sound Quantity

/-- Window `k` of `w` frames is one of a clip's, and its first channel is below the threshold. -/
def Sound.Clip.QuietAt (c : Clip) (w : ℕ) (threshold : ℚ) (k : ℕ) : Prop :=
  k * w < c.frames ∧ Energy.rms (piece w c.levels k) < threshold

def Sound.Clip.seconds (c : Clip) : ℚ := c.frames / c.rate

namespace Timeline

/-- A voice plays a stretch inside a clip, and both cuts are accounted for: the first by its draw or
a quiet window, the second by the length aimed at, a quiet window or a limit. -/
structure SoundCut (c : Clip) (w : ℕ) (threshold target : ℚ) (draw : UInt32) (v : Voice ℚ) :
    Prop where
  start_nonneg : 0 ≤ v.start
  finish_le : v.start + v.length ≤ c.seconds
  start_eq : v.start = Window.drawn c.seconds target draw ∨
    ∃ k : ℕ, c.QuietAt w threshold k ∧ v.start = k * w / c.rate
  finish_eq : v.start + v.length = v.start + target ∨
    (∃ k : ℕ, c.QuietAt w threshold k ∧ v.start + v.length = k * w / c.rate) ∨
    v.start + v.length = v.start + 1 / 10 ∨ v.start + v.length = c.seconds

section

variable [Kit]

/-- What a library finds in a file: the clip, its length and the starts of its quiet windows. -/
theorem contents_sound (hFrames : Kit.CountsFrames) {files : FileTree} {settings : Library}
    {path : String} {length θ : ℚ} {points : List ℚ}
    (hThreshold : ofValue settings.threshold = .ok θ)
    (h : Library.contentsOf files settings path = some (length, points)) :
    ∃ (raw : Wave.Raw) (c : Clip) (ms : ℚ) (w : ℕ),
      Library.read files path = .ok raw ∧ raw.clip = .ok c ∧
      ofValue settings.windowMs = .ok ms ∧ ⌊c.rate * ms / 1000⌋ = w ∧ 0 < w ∧ 0 < c.rate ∧
      length = c.seconds ∧ ∀ x ∈ points, ∃ k : ℕ, c.QuietAt w θ k ∧ x = k * w / c.rate := by
  obtain ⟨raw, hRead, hSeconds, hAnalyze⟩ := Library.contentsOf_eq_some h
  rw [hFrames.seconds_eq] at hSeconds
  obtain ⟨c, hClip, hAnalyze⟩ := bind_eq_ok.mp hAnalyze
  obtain ⟨loudness, hLoudness, hProfile⟩ := bind_eq_ok.mp hAnalyze
  have hRate : (ofValue (.int c.rate) : Except Fault ℚ) = .ok c.rate := rfl
  obtain ⟨ms, w, hMs, hFloor, hw, rfl⟩ := Energy.profile_rat hRate hThreshold hProfile
  have hPositive : 0 < c.rate := by
    apply Nat.pos_of_ne_zero
    intro hZero
    rw [hZero, Nat.cast_zero, zero_mul, zero_div, Int.floor_zero] at hFloor
    omega
  obtain ⟨hChannels, hLength⟩ := Wave.Raw.seconds_rat hClip hPositive hSeconds
  refine ⟨raw, c, ms, w, hRead, hClip, hMs, hFloor, hw, hPositive, hLength, ?_⟩
  intro x hx
  obtain ⟨k, hk, rfl⟩ := List.mem_map.mp hx
  rw [Clip.loudness_rat hChannels hLoudness, Energy.mem_quietWindows hw, Clip.levels_length] at hk
  exact ⟨k, hk, rfl⟩

theorem voiceFrom_soundCut (hFrames : Kit.CountsFrames) {files : FileTree} {settings : Library}
    {range duration : Value} {path : String} {g : Generator} {v : Voice ℚ} {θ : ℚ}
    (hThreshold : ofValue settings.threshold = .ok θ)
    (h : voiceFrom (Library.contentsOf files settings) range path duration g = .ok v) :
    ∃ (raw : Wave.Raw) (c : Clip) (ms length : ℚ) (w : ℕ),
      Library.read files path = .ok raw ∧ raw.clip = .ok c ∧
      ofValue settings.windowMs = .ok ms ∧ ⌊c.rate * ms / 1000⌋ = w ∧ 0 < w ∧ 0 < c.rate ∧
      ofValue duration = .ok length ∧ SoundCut c w θ (length / 1000) g.next.1 v := by
  unfold voiceFrom at h
  split at h
  · cases h
  · rename_i clip points hContents
    obtain ⟨raw, c, ms, w, hRead, hClip, hMs, hFloor, hw, hRate, rfl, hPoints⟩ :=
      contents_sound hFrames hThreshold hContents
    obtain ⟨length, hLength, h⟩ := bind_eq_ok.mp h
    obtain ⟨target, hTarget, h⟩ := bind_eq_ok.mp h
    obtain ⟨⟨⟨start, stretch⟩, g'⟩, hPick, h⟩ := bind_eq_ok.mp h
    cases pure_eq_ok.mp h
    obtain ⟨-, rfl⟩ := div_rat_eq_ok.mp hTarget
    have hCuts := Window.pick_cuts hPick
    refine ⟨raw, c, ms, length, w, hRead, hClip, hMs, hFloor, hw, hRate, hLength, ?_⟩
    exact
      { start_nonneg := hCuts.start_nonneg
        finish_le := hCuts.finish_le
        start_eq := hCuts.start_mem.imp id (hPoints start)
        finish_eq := hCuts.finish_mem.imp id (Or.imp_left (hPoints (start + stretch))) }

/-- Every voice of an episode whose library starts empty is cut soundly out of the clip decoded from
its file, at the draw after those of the voices before it; lengths have to be told by frames. -/
theorem generate_soundCut (hFrames : Kit.CountsFrames) {files : FileTree}
    {resolve : Option String → String → Act (Shelf ℚ) (Option String)}
    (hApart : Library.Apart resolve) {timing : Timing} {θ : ℚ}
    (hThreshold : ofValue timing.energyThreshold = .ok θ) {script : Script}
    {generator : Option Generator} {notes : List Note} {timeline : Timeline ℚ} {g : Generator}
    {s' : Shelf ℚ}
    (h : (generate (Library.studio files resolve) timing script generator).perform
      ⟨.ofTiming timing, .empty, notes⟩ = (.ok (timeline, g), s'))
    {before after : List (Entry ℚ)} {entry : Entry ℚ} {v : Voice ℚ}
    (hEntries : timeline.entries = before ++ entry :: after) (hVoice : entry.voice = some v) :
    ∃ (raw : Wave.Raw) (c : Clip) (ms length : ℚ) (w : ℕ),
      Library.read files v.path = .ok raw ∧ raw.clip = .ok c ∧
      ofValue timing.energyWindowMs = .ok ms ∧ ⌊c.rate * ms / 1000⌋ = w ∧ 0 < w ∧ 0 < c.rate ∧
      ofValue entry.duration = .ok length ∧
      SoundCut c w θ (length / 1000)
        (Generator.step^[(before.filterMap Entry.voice).length]
          (generator.getD (.ofSeed (seedOf script)))).next.1 v := by
  have hShows := Library.studio_shows hApart files (.ofTiming timing)
  have hDrawn := generate_drawn hShows (Library.kept_empty files timing notes) h
  rw [hEntries] at hDrawn
  exact voiceFrom_soundCut hFrames hThreshold (hDrawn.voice_at hVoice)

end

/-- A sound file with ten frames in a second: a second of silence, then one of full loudness. -/
def callFile : List UInt8 :=
  [0x52, 0x49, 0x46, 0x46, 56, 0, 0, 0, 0x57, 0x41, 0x56, 0x45,
    0x66, 0x6D, 0x74, 0x20, 16, 0, 0, 0, 1, 0, 1, 0, 10, 0, 0, 0, 10, 0, 0, 0, 1, 0, 8, 0,
    0x64, 0x61, 0x74, 0x61, 20, 0, 0, 0] ++
  List.replicate 10 128 ++ List.replicate 10 0

def callRaw : Wave.Raw := ⟨1, 10, 1, List.replicate 10 0 ++ List.replicate 10 128⟩

def callFiles : FileTree := ⟨[(["call.wav"], .file callFile)]⟩

theorem read_callFiles : Library.read callFiles "call.wav" = .ok callRaw := by
  have hPlace : callFiles.locate "call.wav" = .ok ["call.wav"] := by rfl
  rw [Library.read, FileTree.read, hPlace]
  rfl

def sameCall : Option String → String → Act (Shelf ℚ) (Option String) :=
  fun _ _ => return some "call.wav"

def callTiming : Timing := { energyThreshold := .int 1, energySearchRange := .int 1 }

def call : Script := ⟨some 12, [.shot "wide", .text (some "mario") none "Hello!"]⟩

/-- The call is cut at quiet windows on both sides. -/
theorem call_voices :
    (((generate (Library.studio callFiles sameCall) callTiming call none).perform
      ⟨.ofTiming callTiming, .empty, []⟩).1.toOption.map fun r =>
        (voices r.1).map fun v => (v.path, v.start, v.length)) =
      some [("call.wav", 1 / 2, 2 / 5)] := by
  have hNamed : (named [none, some "call.wav"]).eraseDups = ["call.wav"] := by decide +kernel
  simp only [generate, call, collect, Library.studio, sameCall, Act.perform_bind, Act.perform_pure,
    hNamed, Library.preload, Library.load, read_callFiles]
  decide +kernel

theorem call_soundCut :
    ∃ (timeline : Timeline ℚ) (g : Generator) (s' : Shelf ℚ) (before after : List (Entry ℚ))
      (entry : Entry ℚ) (c : Clip) (ms length : ℚ) (w : ℕ),
      (generate (Library.studio callFiles sameCall) callTiming call none).perform
        ⟨.ofTiming callTiming, .empty, []⟩ = (.ok (timeline, g), s') ∧
      timeline.entries = before ++ entry :: after ∧
      entry.voice = some ⟨"call.wav", 1 / 2, 2 / 5⟩ ∧
      callRaw.clip = .ok c ∧ ofValue callTiming.energyWindowMs = .ok ms ∧
      ⌊c.rate * ms / 1000⌋ = w ∧ 0 < w ∧ ofValue entry.duration = .ok length ∧
      SoundCut c w 1 (length / 1000)
        (Generator.step^[(before.filterMap Entry.voice).length] (.ofSeed 12)).next.1
        ⟨"call.wav", 1 / 2, 2 / 5⟩ := by
  rcases hRun : (generate (Library.studio callFiles sameCall) callTiming call none).perform
    ⟨.ofTiming callTiming, .empty, []⟩ with ⟨_ | ⟨timeline, g⟩, s'⟩
  · have hVoices := call_voices
    rw [hRun] at hVoices
    cases hVoices
  · have hVoices := call_voices
    rw [hRun] at hVoices
    obtain ⟨⟨path, start, stretch⟩, hVoice, hEq⟩ :=
      List.map_eq_singleton_iff.mp (Option.some.inj hVoices)
    cases hEq
    obtain ⟨entry, hEntry, hVoice⟩ := List.mem_filterMap.mp
      (show _ ∈ timeline.entries.filterMap Entry.voice from hVoice ▸ List.mem_singleton_self _)
    obtain ⟨before, after, hEntries⟩ := List.append_of_mem hEntry
    obtain ⟨raw, c, ms, length, w, hRead, hClip, hMs, hFloor, hw, -, hLength, hCut⟩ :=
      generate_soundCut plainKit_countsFrames (fun _ _ _ => ⟨rfl, rfl⟩) rfl hRun hEntries hVoice
    rw [read_callFiles] at hRead
    cases hRead
    exact ⟨timeline, g, s', before, after, entry, c, ms, length, w, rfl, hEntries, hVoice, hClip,
      hMs, hFloor, hw, hLength, hCut⟩

end Timeline

/-- The answers of a manifest are given apart from the library. -/
theorem Command.resolveBy_apart (manifest : Value) (assets : String) :
    Library.Apart (Command.resolveBy manifest assets) := by
  intro character state s
  cases character with
  | none => exact ⟨rfl, rfl⟩
  | some name => exact ⟨rfl, rfl⟩

end Radioplay
