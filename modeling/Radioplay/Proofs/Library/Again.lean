import Radioplay.Proofs.Library.Steps
import Radioplay.Proofs.Timeline.Walk

/-! A timeline made again from the clips of a library. Nothing but the loading looks at the files,
so where every clip that has been loaded can be read as before, all comes out as before. -/

namespace Radioplay

/-- Does a studio tell of its clips without a change of state? -/
structure Studio.OnlyTells {σ α : Type} (studio : Studio σ α) : Prop where
  duration : ∀ path s, ((studio.duration path).perform s).2 = s
  points : ∀ path s, ((studio.points path).perform s).2 = s

namespace Timeline

variable {σ α : Type} {studio studio' : Studio σ α}

theorem collect_congr (h : studio'.resolve = studio.resolve) (events : List Event) :
    collect studio' events = collect studio events := by
  induction events with
  | nil => rfl
  | cons event rest ih => cases event <;> simp only [collect, h, ih]

variable [Quantity α] {timing : Timing} {clock clock' : Clock} {s s' : σ}

theorem walk_congr (hDuration : studio'.duration = studio.duration)
    (hPoints : studio'.points = studio.points) (timing : Timing) (clock : Clock)
    (items : List (Event × Option String)) :
    walk studio' timing clock items = walk studio timing clock items := by
  have hVoice (path : String) (duration : Value) (g : Generator) :
      voiceFor studio' timing path duration g = voiceFor studio timing path duration g := by
    rw [voiceFor, voiceFor, hDuration, hPoints]
  have hEnter (clock : Clock) (event : Event) (path : Option String) :
      enter studio' timing clock event path = enter studio timing clock event path := by
    cases event <;> simp only [enter, hVoice]
  induction items generalizing clock with
  | nil => rfl
  | cons item rest ih => simp only [walk, hEnter, ih]

theorem voiceFor_leaves (h : studio.OnlyTells) {path : String} {duration : Value}
    {g g' : Generator} {v : Voice α}
    (hVoice : (voiceFor studio timing path duration g).perform s = (.ok (v, g'), s')) : s' = s := by
  simp only [voiceFor, Act.perform_bind_eq_ok, Act.perform_ofExcept_eq_ok,
    Act.perform_pure_eq_ok] at hVoice
  obtain ⟨_, s₁, hDuration, _, _, ⟨-, rfl⟩, _, s₂, hPoints, _, _, ⟨-, rfl⟩, -, rfl⟩ := hVoice
  have hFirst := h.duration path s
  have hSecond := h.points path s₁
  rw [hDuration] at hFirst
  rw [hPoints] at hSecond
  exact hSecond.trans hFirst

/-- A walk over the events changes nothing that the studio's clips are told from. -/
theorem walk_leaves (h : studio.OnlyTells) {items : List (Event × Option String)}
    {entries : List (Entry α)}
    (hWalk : (walk studio timing clock items).perform s = (.ok (entries, clock'), s')) :
    s' = s := by
  induction items generalizing clock s entries with
  | nil => exact (walk_nil_ok hWalk).2.2
  | cons item rest ih =>
    obtain ⟨entry, between, s₁, now, more, hEntered, -, hRest, -⟩ := walk_cons_ok hWalk
    have hVoiced := hEntered.voiced
    rw [ih hRest]
    cases hClip : clipOf item.1 item.2 with
    | none =>
      rw [hClip] at hVoiced
      exact hVoiced.2.2
    | some path =>
      rw [hClip] at hVoiced
      obtain ⟨v, -, hVoice⟩ := hVoiced
      exact voiceFor_leaves h hVoice

end Timeline

namespace Library

variable {α : Type} [Sound.Kit] [Quantity α] {files files' : FileTree} {path : String}
  {s s' : Shelf α}

/-- A clip that has been read is read again from the same bytes. -/
theorem read_again {raw : Sound.Wave.Raw} (hRead : read files path = .ok raw)
    (hBytes : ∀ bytes, files.read path = .ok bytes → files'.read path = .ok bytes) :
    read files' path = .ok raw := by
  unfold read at hRead ⊢
  cases hFile : files.read path with
  | error fault =>
    rw [hFile] at hRead
    cases hRead
  | ok bytes =>
    rw [hFile] at hRead
    rw [hBytes bytes hFile]
    exact hRead

theorem load_again {raw : Sound.Wave.Raw} (hLoad : (load files path).perform s = (.ok raw, s'))
    (hRead : ∀ raw, read files path = .ok raw → read files' path = .ok raw) :
    (load files' path).perform s = (.ok raw, s') := by
  cases hGet : s.library.clips.get? path with
  | some found =>
    simp only [load, Act.perform_bind, Act.perform_get, hGet, Act.perform_pure] at hLoad ⊢
    exact hLoad
  | none =>
    have hSame : read files' path = read files path := by
      cases hFirst : read files path with
      | ok found => exact hRead found hFirst
      | error fault =>
        simp only [load, Act.perform_bind, Act.perform_get, hGet, Act.perform_ofExcept,
          hFirst] at hLoad
        cases hLoad
    rw [load, hSame, ← load]
    exact hLoad

theorem preload_again {paths : List String}
    (h : (preload files paths).perform s = (.ok (), s'))
    (hRead : ∀ p ∈ paths, ∀ raw, read files p = .ok raw → read files' p = .ok raw) :
    (preload files' paths).perform s = (.ok (), s') := by
  induction paths generalizing s with
  | nil => exact h
  | cons path rest ih =>
    rw [preload, Act.perform_bind_eq_ok] at h ⊢
    obtain ⟨raw, s₁, hLoad, hRest⟩ := h
    exact ⟨raw, s₁, load_again hLoad (hRead path List.mem_cons_self),
      ih hRest fun p hp => hRead p (List.mem_cons_of_mem path hp)⟩

theorem studio_onlyTells (files : FileTree)
    (resolve : Option String → String → Act (Shelf α) (Option String)) :
    (studio files resolve).OnlyTells where
  duration _ _ := rfl
  points _ _ := rfl

/-- Where the clips that have been loaded are read as before, a timeline comes out as before. -/
theorem generate_again {resolve : Option String → String → Act (Shelf α) (Option String)}
    {timing : Timing} {script : Script} {generator : Option Generator}
    {made : Timeline α × Generator}
    (h : (Timeline.generate (studio files resolve) timing script generator).perform s =
      (.ok made, s'))
    (hRead : ∀ p, (s'.library.clips.get? p).isSome → ∀ raw, read files p = .ok raw →
      read files' p = .ok raw) :
    (Timeline.generate (studio files' resolve) timing script generator).perform s =
      (.ok made, s') := by
  have hResolve : (studio files' resolve).resolve = (studio files resolve).resolve := rfl
  have hDuration : (studio files' resolve).duration = (studio files resolve).duration := rfl
  have hPoints : (studio files' resolve).points = (studio files resolve).points := rfl
  simp only [Timeline.generate, Timeline.collect_congr hResolve,
    Timeline.walk_congr hDuration hPoints, Act.perform_bind_eq_ok] at h ⊢
  obtain ⟨paths, s₁, hCollect, _, s₂, hPreload, walked, s₃, hWalk, hEnd⟩ := h
  refine ⟨paths, s₁, hCollect, (), s₂, ?_, walked, s₃, hWalk, hEnd⟩
  obtain ⟨-, rfl⟩ := Act.perform_pure_eq_ok.mp hEnd
  -- The walk loads nothing, so the clips there at the end are those that were preloaded.
  obtain rfl := Timeline.walk_leaves (studio_onlyTells files resolve) hWalk
  obtain ⟨_, noted, hNote, hLoaded⟩ := Act.perform_bind_eq_ok.mp hPreload
  exact Act.perform_bind_eq_ok.mpr ⟨(), noted, hNote, preload_again hLoaded fun p hp =>
    hRead p ((preload_holds hLoaded p).mpr (.inr hp))⟩

end Library

end Radioplay
