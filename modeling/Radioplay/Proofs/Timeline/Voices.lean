import Mathlib.Data.List.Basic
import Mathlib.Logic.Function.Iterate
import Radioplay.Proofs.Timeline.Walk

/-! The voices of a timeline, in the order of its lines. Voice `j` is drawn with the generator after
`j` draws, from the clip that its line was given and for the time that its line takes; nothing else
of the script, the settings or the clock has a part in it. -/

namespace Radioplay

/-- The length and the quiet points of a clip, by its path. -/
abbrev Contents (α : Type) := String → Option (α × List α)

/-- What a studio tells of a clip, in any state that `I` admits, is what `contents` says of it, and
nothing asked of the studio leads out of `I`. -/
structure Studio.Shows {σ α : Type} (studio : Studio σ α) (contents : Contents α) (I : σ → Prop) :
    Prop where
  resolve : ∀ character state s, I s → I ((studio.resolve character state).perform s).2
  preload : ∀ paths s, I s → I ((studio.preload paths).perform s).2
  duration : ∀ path s, I s → I ((studio.duration path).perform s).2
  points : ∀ path s, I s → I ((studio.points path).perform s).2
  told : ∀ path s x s₁ ps s₂, I s → (studio.duration path).perform s = (.ok x, s₁) →
    (studio.points path).perform s₁ = (.ok ps, s₂) → contents path = some (x, ps)

namespace Timeline

/-- The stretch of a clip that is drawn for a line of a given duration. -/
def voiceFrom {α : Type} [Quantity α] (contents : Contents α) (range : Value) (path : String)
    (duration : Value) (g : Generator) : Except Fault (Voice α) :=
  match contents path with
  | none => .error (.clipNotLoaded path)
  | some (clip, points) => do
    let ms ← (Quantity.ofValue duration : Except Fault α)
    let target ← Quantity.div ms (Quantity.ofInt 1000)
    let ((start, length), _) ← Window.pick clip target points g range
    return ⟨path, start, length⟩

/-- The clip of a line and the time that the line takes, for a line that has a clip. -/
def cue? (timing : Timing) (e : Event × Option String) : Option (String × Except Fault Value) :=
  (clipOf e.1 e.2).map fun path => (path, lengthOf timing e.1)

/-- The cues of a script, with a studio's answers for its lines. -/
def cuesOf {σ α : Type} (studio : Studio σ α) (timing : Timing) (script : Script) (s : σ) :
    List (String × Except Fault Value) :=
  match (collect studio script.events).perform s with
  | (.ok paths, _) => (script.events.zip paths).filterMap (cue? timing)
  | (.error _, _) => []

def voices {α : Type} (t : Timeline α) : List (Voice α) := t.entries.filterMap Entry.voice

def cueOf? {α : Type} (e : Entry α) : Option (String × Value) :=
  e.voice.map fun v => (v.path, e.duration)

section

variable {σ α : Type}

theorem collect_keeps {studio : Studio σ α} {contents : Contents α} {I : σ → Prop} {s s' : σ}
    (hShows : studio.Shows contents I) (hs : I s) {events : List Event}
    {paths : List (Option String)}
    (h : (collect studio events).perform s = (.ok paths, s')) : I s' := by
  induction events generalizing s paths with
  | nil =>
    obtain ⟨-, rfl⟩ := Act.perform_pure_eq_ok.mp h
    exact hs
  | cons event rest ih =>
    cases event <;>
      simp only [collect, Act.perform_bind_eq_ok, Act.perform_pure_eq_ok] at h
    case text character state words =>
      obtain ⟨_, s₁, hAnswer, _, _, hRest, -, rfl⟩ := h
      have hs₁ := hShows.resolve character (stateOf state) s hs
      rw [hAnswer] at hs₁
      exact ih hs₁ hRest
    all_goals
      obtain ⟨_, _, hRest, -, rfl⟩ := h
      exact ih hs hRest

variable [Quantity α] {studio : Studio σ α} {contents : Contents α} {I : σ → Prop}
  {timing : Timing} {s s' : σ}

theorem pick_ok {clip target : α} {points : List α} {g g' : Generator} {range : Value}
    {window : α × α} (h : Window.pick clip target points g range = .ok (window, g')) :
    g' = g.step := by
  simp only [Window.pick, bind_eq_ok, pure_eq_ok, Prod.mk.injEq] at h
  obtain ⟨_, -, _, -, _, -, -, rfl⟩ := h
  rfl

theorem voiceFor_ok (hShows : studio.Shows contents I) (hs : I s) {path : String}
    {duration : Value} {g g' : Generator} {voice : Voice α}
    (h : (voiceFor studio timing path duration g).perform s = (.ok (voice, g'), s')) :
    voiceFrom contents timing.energySearchRange path duration g = .ok voice ∧
      voice.path = path ∧ g' = g.step ∧ I s' := by
  simp only [voiceFor, Act.perform_bind_eq_ok, Act.perform_ofExcept_eq_ok,
    Act.perform_pure_eq_ok, Prod.mk.injEq] at h
  obtain ⟨clip, s₁, hClip, target, _, ⟨hTarget, rfl⟩, points, s₂, hPoints, ⟨⟨start, length⟩, _⟩, _,
    ⟨hPick, rfl⟩, ⟨rfl, rfl⟩, rfl⟩ := h
  obtain ⟨ms, hMs, hDiv⟩ := bind_eq_ok.mp hTarget
  refine ⟨?_, rfl, pick_ok hPick, ?_⟩
  · rw [voiceFrom, hShows.told path s clip s₁ points s₂ hs hClip hPoints]
    simp only [bind_eq_ok]
    exact ⟨ms, hMs, target, hDiv, _, hPick, rfl⟩
  · have h₁ := hShows.duration path s hs
    rw [hClip] at h₁
    have h₂ := hShows.points path s₁ h₁
    rwa [hPoints] at h₂

/-- What entering an event does to the voices: it has a voice exactly when it has a cue. -/
theorem Entered.voice_ok (hShows : studio.Shows contents I) (hs : I s) {clock clock' : Clock}
    {event : Event} {path : Option String} {entry : Entry α}
    (h : Entered studio timing clock s event path entry clock' s') :
    I s' ∧
      (entry.voice = none ∧ cue? timing (event, path) = none ∧
          clock'.generator = clock.generator ∨
        ∃ voice, entry.voice = some voice ∧
          cue? timing (event, path) = some (voice.path, .ok entry.duration) ∧
          voiceFrom contents timing.energySearchRange voice.path entry.duration clock.generator =
            .ok voice ∧
          clock'.generator = clock.generator.step) := by
  have hVoiced := h.voiced
  cases hClip : clipOf event path with
  | none =>
    rw [hClip] at hVoiced
    obtain ⟨hNone, hGenerator, rfl⟩ := hVoiced
    exact ⟨hs, .inl ⟨hNone, by rw [cue?, hClip, Option.map_none], hGenerator⟩⟩
  | some clip =>
    rw [hClip] at hVoiced
    obtain ⟨voice, hVoice, hPerform⟩ := hVoiced
    obtain ⟨hFrom, hPath, hGenerator, hs'⟩ := voiceFor_ok hShows hs hPerform
    refine ⟨hs', .inr ⟨voice, hVoice, ?_, by rw [hPath]; exact hFrom, hGenerator⟩⟩
    rw [cue?, hClip, Option.map_some, hPath, h.length_eq]

/-- Each voice is drawn in turn for its cue, and each takes one draw. -/
structure DrawnInTurn (contents : Contents α) (range : Value) (g g' : Generator)
    (cues : List (String × Except Fault Value)) (entries : List (Entry α)) : Prop where
  cues_eq : cues = (entries.filterMap cueOf?).map fun c => (c.1, .ok c.2)
  voices_eq : (entries.filterMap Entry.voice).map Except.ok =
    (entries.filterMap cueOf?).zipIdx.map fun c =>
      voiceFrom contents range c.1.1 c.1.2 (Generator.step^[c.2] g)
  generator_eq : g' = Generator.step^[(entries.filterMap Entry.voice).length] g

theorem DrawnInTurn.skip {range : Value} {g g' : Generator}
    {cues : List (String × Except Fault Value)} {entries : List (Entry α)} {entry : Entry α}
    (h : DrawnInTurn contents range g g' cues entries) (hNone : entry.voice = none) :
    DrawnInTurn contents range g g' cues (entry :: entries) := by
  have hCue : cueOf? entry = none := by rw [cueOf?, hNone, Option.map_none]
  obtain ⟨h1, h2, h3⟩ := h
  constructor
  · rwa [List.filterMap_cons_none hCue]
  · rwa [List.filterMap_cons_none hCue, List.filterMap_cons_none hNone]
  · rwa [List.filterMap_cons_none hNone]

theorem DrawnInTurn.draw {range : Value} {g g' : Generator}
    {cues : List (String × Except Fault Value)} {entries : List (Entry α)} {entry : Entry α}
    {voice : Voice α} (h : DrawnInTurn contents range g.step g' cues entries)
    (hVoice : entry.voice = some voice)
    (hFrom : voiceFrom contents range voice.path entry.duration g = .ok voice) :
    DrawnInTurn contents range g g' ((voice.path, .ok entry.duration) :: cues)
      (entry :: entries) := by
  have hCue : cueOf? entry = some (voice.path, entry.duration) := by
    rw [cueOf?, hVoice, Option.map_some]
  obtain ⟨h1, h2, h3⟩ := h
  constructor
  · rw [List.filterMap_cons_some hCue, List.map_cons, ← h1]
  · rw [List.filterMap_cons_some hCue, List.filterMap_cons_some hVoice, List.map_cons, h2,
      List.zipIdx_cons', List.map_cons, List.map_map]
    apply congrArg₂ List.cons hFrom.symm
    apply List.map_congr_left
    intro c _
    rw [Function.comp_apply, Prod.map_snd, Prod.map_fst, Function.iterate_succ_apply]
    rfl
  · rw [List.filterMap_cons_some hVoice, List.length_cons, Function.iterate_succ_apply]
    exact h3

theorem getElem?_filterMap_append {γ δ : Type} {f : γ → Option δ} {x : γ} {y : δ} (h : f x = some y)
    (before after : List γ) :
    ((before ++ x :: after).filterMap f)[(before.filterMap f).length]? = some y := by
  rw [List.filterMap_append, List.filterMap_cons_some h, List.getElem?_append_right (Nat.le_refl _),
    Nat.sub_self, List.getElem?_cons_zero]

/-- What is drawn for the same cues, from the same contents with the same generator, is the same. -/
theorem DrawnInTurn.agrees {range : Value} {g g₁ g₂ : Generator}
    {cues : List (String × Except Fault Value)} {entries₁ entries₂ : List (Entry α)}
    (h₁ : DrawnInTurn contents range g g₁ cues entries₁)
    (h₂ : DrawnInTurn contents range g g₂ cues entries₂) :
    entries₁.filterMap Entry.voice = entries₂.filterMap Entry.voice ∧ g₁ = g₂ := by
  have hCues : entries₁.filterMap cueOf? = entries₂.filterMap cueOf? := by
    have hInjective : Function.Injective fun c : String × Value =>
        (c.1, (.ok c.2 : Except Fault Value)) := by
      rintro ⟨p, d⟩ ⟨p', d'⟩ hEq
      obtain ⟨rfl, hOk⟩ := Prod.mk.inj hEq
      exact congrArg (Prod.mk p) (Except.ok.inj hOk)
    exact List.map_injective_iff.mpr hInjective (h₁.cues_eq.symm.trans h₂.cues_eq)
  have hVoices : entries₁.filterMap Entry.voice = entries₂.filterMap Entry.voice := by
    have hInjective : Function.Injective (Except.ok : Voice α → Except Fault (Voice α)) :=
      fun _ _ => Except.ok.inj
    refine List.map_injective_iff.mpr hInjective ?_
    rw [h₁.voices_eq, h₂.voices_eq, hCues]
  exact ⟨hVoices, by rw [h₁.generator_eq, h₂.generator_eq, hVoices]⟩

/-- A voice is what the contents make of the draw after those of the voices before it. -/
theorem DrawnInTurn.voice_at {range : Value} {g g' : Generator}
    {cues : List (String × Except Fault Value)} {before after : List (Entry α)}
    {entry : Entry α} {voice : Voice α}
    (h : DrawnInTurn contents range g g' cues (before ++ entry :: after))
    (hVoice : entry.voice = some voice) :
    voiceFrom contents range voice.path entry.duration
      (Generator.step^[(before.filterMap Entry.voice).length] g) = .ok voice := by
  have hCue : cueOf? entry = some (voice.path, entry.duration) := by
    rw [cueOf?, hVoice, Option.map_some]
  have hLength : (before.filterMap Entry.voice).length = (before.filterMap cueOf?).length := by
    rw [List.length_filterMap_eq_countP, List.length_filterMap_eq_countP]
    exact List.countP_congr fun e _ => by rw [cueOf?, Option.isSome_map]
  have hAt := congrArg (fun l => l[(before.filterMap Entry.voice).length]?) h.voices_eq
  simp only [List.getElem?_map, getElem?_filterMap_append hVoice, Option.map_some] at hAt
  rw [hLength, List.getElem?_zipIdx, getElem?_filterMap_append hCue, Option.map_some,
    Option.map_some, Nat.zero_add, ← hLength] at hAt
  exact (Option.some.inj hAt).symm

/-- The induction over a walk: events without a cue take no part in the draws. -/
theorem walk_drawn (hShows : studio.Shows contents I) (hs : I s) {clock last : Clock}
    {items : List (Event × Option String)} {entries : List (Entry α)}
    (h : (walk studio timing clock items).perform s = (.ok (entries, last), s')) :
    DrawnInTurn contents timing.energySearchRange clock.generator last.generator
      (items.filterMap (cue? timing)) entries := by
  induction items generalizing clock s entries with
  | nil =>
    obtain ⟨rfl, rfl, -⟩ := walk_nil_ok h
    exact ⟨rfl, rfl, rfl⟩
  | cons item rest ih =>
    obtain ⟨event, path⟩ := item
    obtain ⟨entry, between, s₁, now, more, hEntered, -, hWalk, rfl⟩ := walk_cons_ok h
    obtain ⟨hs₁, ⟨hNone, hCue, hSame⟩ | ⟨voice, hVoice, hCue, hFrom, hStep⟩⟩ :=
      hEntered.voice_ok hShows hs
    · rw [List.filterMap_cons_none hCue, ← hSame]
      have hRest := ih hs₁ hWalk
      exact hRest.skip hNone
    · rw [List.filterMap_cons_some hCue]
      have hRest := ih hs₁ hWalk
      refine DrawnInTurn.draw ?_ hVoice hFrom
      rwa [← hStep]

theorem generate_drawn (hShows : studio.Shows contents I) (hs : I s) {script : Script}
    {generator : Option Generator} {timeline : Timeline α} {g : Generator}
    (h : (generate studio timing script generator).perform s = (.ok (timeline, g), s')) :
    DrawnInTurn contents timing.energySearchRange (generator.getD (.ofSeed (seedOf script))) g
      (cuesOf studio timing script s) timeline.entries := by
  obtain ⟨paths, s₁, s₂, last, hCollect, hLoad, hWalk, -, -, rfl⟩ := generate_ok h
  have hs₁ := collect_keeps hShows hs hCollect
  have hs₂ := hShows.preload (named paths).eraseDups s₁ hs₁
  rw [hLoad] at hs₂
  rw [cuesOf, hCollect]
  exact walk_drawn hShows hs₂ hWalk

end

/-- Two episodes of the same clips with the same cues have the same voices, whatever else there is
in their scripts and settings; each voice has taken one draw. -/
theorem voices_eq_of_cues_eq {σ τ α : Type} [Quantity α] {a : Studio σ α} {b : Studio τ α}
    {contents : Contents α} {I : σ → Prop} {J : τ → Prop} {timing₁ timing₂ : Timing}
    {script₁ script₂ : Script} {generator₁ generator₂ : Option Generator} {s s' : σ} {t t' : τ}
    {timeline₁ timeline₂ : Timeline α} {g₁ g₂ : Generator}
    (ha : a.Shows contents I) (hs : I s) (hb : b.Shows contents J) (ht : J t)
    (hRange : timing₁.energySearchRange = timing₂.energySearchRange)
    (hGenerator : generator₁.getD (.ofSeed (seedOf script₁)) =
      generator₂.getD (.ofSeed (seedOf script₂)))
    (h₁ : (generate a timing₁ script₁ generator₁).perform s = (.ok (timeline₁, g₁), s'))
    (h₂ : (generate b timing₂ script₂ generator₂).perform t = (.ok (timeline₂, g₂), t'))
    (hCues : cuesOf a timing₁ script₁ s = cuesOf b timing₂ script₂ t) :
    voices timeline₁ = voices timeline₂ ∧ g₁ = g₂ ∧
      g₁ = Generator.step^[(voices timeline₁).length]
        (generator₁.getD (.ofSeed (seedOf script₁))) := by
  have hDrawn₁ := generate_drawn ha hs h₁
  have hDrawn₂ := generate_drawn hb ht h₂
  rw [← hRange, ← hGenerator, ← hCues] at hDrawn₂
  exact ⟨(hDrawn₁.agrees hDrawn₂).1, (hDrawn₁.agrees hDrawn₂).2, hDrawn₁.generator_eq⟩

def answerFor (answer : Option String → String → Option String) : Event → Option String
  | .text character state _ => answer character (stateOf state)
  | _ => none

/-- Where the answers for lines are fixed, the cues are those of the lines one by one: no event
without a clip adds to them, wherever it stands. -/
theorem cuesOf_eq_filterMap {σ α : Type} {studio : Studio σ α} (timing : Timing)
    (script : Script) (s : σ) {answer : Option String → String → Option String}
    (hAnswer : ∀ character state s,
      (studio.resolve character state).perform s = (.ok (answer character state), s)) :
    cuesOf studio timing script s =
      script.events.filterMap fun e => cue? timing (e, answerFor answer e) := by
  have hCollect (events : List Event) : (collect studio events).perform s =
      (.ok (events.map (answerFor answer)), s) := by
    induction events with
    | nil => rfl
    | cons event rest ih =>
      cases event <;>
        simp only [collect, Act.perform_bind, Act.perform_pure, hAnswer, ih, List.map_cons,
          answerFor]
  have hZip (events : List Event) :
      (events.zip (events.map (answerFor answer))).filterMap (cue? timing) =
        events.filterMap fun e => cue? timing (e, answerFor answer e) := by
    induction events with
    | nil => rfl
    | cons event rest ih =>
      rw [List.map_cons, List.zip_cons_cons, List.filterMap_cons, List.filterMap_cons, ih]
  rw [cuesOf, hCollect]
  exact hZip script.events

/-- Does an event have a clip, where the answers for lines are fixed? -/
def isVoiced (answer : Option String → String → Option String) (e : Event) : Bool :=
  (clipOf e (answerFor answer e)).isSome

/-- Of the settings, those for words alone have a part in the cues. -/
theorem cue?_congr {timing₁ timing₂ : Timing} (hWords : timing₁.msPerWord = timing₂.msPerWord)
    (hLeast : timing₁.minDurationMs = timing₂.minDurationMs) :
    cue? timing₁ = cue? timing₂ := by
  funext ⟨event, path⟩
  cases event <;> simp [cue?, clipOf, lengthOf, hWords, hLeast]

/-- The cues are those of the events that have a clip. -/
theorem cuesOf_eq_filterMap_voiced {σ α : Type} {studio : Studio σ α} (timing : Timing)
    (script : Script) (s : σ) {answer : Option String → String → Option String}
    (hAnswer : ∀ character state s,
      (studio.resolve character state).perform s = (.ok (answer character state), s)) :
    cuesOf studio timing script s = (script.events.filter (isVoiced answer)).filterMap
      fun e => cue? timing (e, answerFor answer e) := by
  rw [cuesOf_eq_filterMap timing script s hAnswer, List.filterMap_filter]
  refine List.filterMap_congr fun e _ => ?_
  rw [isVoiced, cue?]
  cases clipOf e (answerFor answer e) <;> rfl

/-- Where the answers for lines are fixed, the voices depend on the events that have a clip and on
the settings for words. Captions, pauses, shots and locations may be put in, left out or moved, and
all other settings changed, but for the range that clips are cut in. -/
theorem voices_eq_of_voiced_eq {σ τ α : Type} [Quantity α] {a : Studio σ α} {b : Studio τ α}
    {contents : Contents α} {I : σ → Prop} {J : τ → Prop} {timing₁ timing₂ : Timing}
    {script₁ script₂ : Script} {generator₁ generator₂ : Option Generator} {s s' : σ} {t t' : τ}
    {timeline₁ timeline₂ : Timeline α} {g₁ g₂ : Generator}
    {answer : Option String → String → Option String}
    (ha : a.Shows contents I) (hs : I s) (hb : b.Shows contents J) (ht : J t)
    (hAnswer₁ : ∀ character state s,
      (a.resolve character state).perform s = (.ok (answer character state), s))
    (hAnswer₂ : ∀ character state t,
      (b.resolve character state).perform t = (.ok (answer character state), t))
    (hWords : timing₁.msPerWord = timing₂.msPerWord)
    (hLeast : timing₁.minDurationMs = timing₂.minDurationMs)
    (hRange : timing₁.energySearchRange = timing₂.energySearchRange)
    (hGenerator : generator₁.getD (.ofSeed (seedOf script₁)) =
      generator₂.getD (.ofSeed (seedOf script₂)))
    (hVoiced : script₁.events.filter (isVoiced answer) = script₂.events.filter (isVoiced answer))
    (h₁ : (generate a timing₁ script₁ generator₁).perform s = (.ok (timeline₁, g₁), s'))
    (h₂ : (generate b timing₂ script₂ generator₂).perform t = (.ok (timeline₂, g₂), t')) :
    voices timeline₁ = voices timeline₂ ∧ g₁ = g₂ := by
  have hDrawn₁ := generate_drawn ha hs h₁
  have hDrawn₂ := generate_drawn hb ht h₂
  rw [cuesOf_eq_filterMap_voiced _ _ _ hAnswer₁, hVoiced, cue?_congr hWords hLeast] at hDrawn₁
  rw [cuesOf_eq_filterMap_voiced _ _ _ hAnswer₂, ← hRange, ← hGenerator] at hDrawn₂
  exact hDrawn₁.agrees hDrawn₂

def soloist : Studio Unit Rat where
  resolve character _ := return (if character = some "mario" then some "mario.wav" else none)
  preload _ := return
  duration _ := return 3
  points _ := return [0, 1 / 2, 1, 2]

theorem soloist_shows :
    soloist.Shows (fun _ => some (3, [0, 1 / 2, 1, 2])) fun _ => True where
  resolve _ _ _ _ := trivial
  preload _ _ _ := trivial
  duration _ _ _ := trivial
  points _ _ _ := trivial
  told path s x s₁ ps s₂ _ hClip hPoints := by
    obtain ⟨rfl, -⟩ := Act.perform_pure_eq_ok.mp hClip
    obtain ⟨rfl, -⟩ := Act.perform_pure_eq_ok.mp hPoints
    rfl

def dialogueScene : Script :=
  ⟨none,
    [.location "park", .text (some "mario") none "Hi there you", .pause none none none,
      .text (some "luigi") none "Yo", .text (some "mario") none "Bye"]⟩

/-- Two lines with clips that take as long, and little else. -/
def monologue : Script :=
  ⟨some 4,
    [.text (some "mario") (some "happy") "So here I", .shot "wide",
      .text (some "mario") none "am"]⟩

theorem monologue_voices :
    ∃ timeline₁ timeline₂ g₁ g₂,
      (generate soloist { energySearchRange := .int 1 } dialogueScene none).perform () =
        (.ok (timeline₁, g₁), ()) ∧
      (generate soloist { energySearchRange := .int 1, speakerGapMs := .int 900 } monologue
        (some (.ofSeed defaultSeed))).perform () = (.ok (timeline₂, g₂), ()) ∧
      voices timeline₁ = voices timeline₂ ∧ g₁ = g₂ ∧
      g₁ = Generator.step^[(voices timeline₁).length] (.ofSeed defaultSeed) := by
  obtain ⟨⟨timeline₁, g₁⟩, _, h₁⟩ := Act.exists_of_isOk (show ((generate soloist
    { energySearchRange := .int 1 } dialogueScene none).perform ()).1.isOk = true by
      decide +kernel)
  obtain ⟨⟨timeline₂, g₂⟩, _, h₂⟩ := Act.exists_of_isOk (show ((generate soloist
    { energySearchRange := .int 1, speakerGapMs := .int 900 } monologue
    (some (.ofSeed defaultSeed))).perform ()).1.isOk = true by decide +kernel)
  have hAnswer : ∀ character state s, (soloist.resolve character state).perform s =
      (.ok (if character = some "mario" then some "mario.wav" else none), s) := fun _ _ _ => rfl
  have hCues : cuesOf soloist { energySearchRange := .int 1 } dialogueScene () =
      cuesOf soloist { energySearchRange := .int 1, speakerGapMs := .int 900 } monologue () := by
    rw [cuesOf_eq_filterMap _ _ _ hAnswer, cuesOf_eq_filterMap _ _ _ hAnswer]
    rfl
  obtain ⟨hVoices, hGenerator, hDraws⟩ :=
    voices_eq_of_cues_eq soloist_shows trivial soloist_shows trivial (by rfl) (by rfl) h₁ h₂ hCues
  exact ⟨timeline₁, timeline₂, g₁, g₂, h₁, h₂, hVoices, hGenerator, hDraws⟩

end Timeline

end Radioplay
