import Mathlib.Data.List.Forall2
import Radioplay.Proofs.Library.Stock
import Radioplay.Proofs.Timeline.Clock
import Radioplay.Proofs.Timeline.CutPoints

/-! Scenes are put together without a seam. Where the first line of a scene comes after a location,
nothing that was said before has a part in it: its timeline is the same after any other scene, only
later on the clock, and drawn with the generator that the scene before it has left. -/

namespace Radioplay

/-- The same entry, `n` milliseconds later on the clock. -/
structure Entry.Delayed {α : Type} (n : Int) (e e' : Entry α) : Prop where
  event_eq : e'.event = e.event
  duration_eq : e'.duration = e.duration
  voice_eq : e'.voice = e.voice
  start_eq : ∃ a, e.start = .int a ∧ e'.start = .int (a + n)
  finish_eq : ∃ b, e.finish = .ok (.int b) ∧ e'.finish = .ok (.int (b + n))

theorem Entry.Delayed.eq_of_zero {α : Type} {e e' : Entry α} (h : e.Delayed 0 e') : e' = e := by
  obtain ⟨hEvent, hDuration, hVoice, ⟨a, hStart, hStart'⟩, -⟩ := h
  cases e
  cases e'
  simp_all

theorem Entry.eq_of_forall₂_zero {α : Type} {entries later : List (Entry α)}
    (h : List.Forall₂ (Entry.Delayed 0) entries later) : later = entries := by
  induction h with
  | nil => rfl
  | cons hEntry _ ih => rw [hEntry.eq_of_zero, ih]

namespace Timeline

/-- The first line of the events, if they have one, comes after a location among them. -/
def StartsFresh (events : List Event) : Prop :=
  ∀ before line after, events = before ++ line :: after → line.isText = true →
    (∀ e ∈ before, e.isText = false) → ∃ e ∈ before, isLocation e = true

theorem not_startsFresh_text {e : Event} {rest : List Event} (hText : e.isText = true) :
    ¬StartsFresh (e :: rest) := by
  intro h
  obtain ⟨_, hNone, -⟩ := h [] e rest rfl hText (by simp)
  cases hNone

theorem StartsFresh.tail {e : Event} {rest : List Event} (h : StartsFresh (e :: rest))
    (hText : e.isText = false) (hPlace : isLocation e = false) : StartsFresh rest := by
  intro before line after hSplit hLine hBefore
  obtain ⟨x, hx, hLocation⟩ := h (e :: before) line after (by rw [hSplit]; rfl) hLine
    (by simpa [hText] using hBefore)
  rcases List.mem_cons.mp hx with rfl | hx
  · rw [hPlace] at hLocation
    cases hLocation
  · exact ⟨x, hx, hLocation⟩

theorem StartsFresh.cons {e : Event} {rest : List Event} (h : StartsFresh rest)
    (hText : e.isText = false) : StartsFresh (e :: rest) := by
  intro before line after hSplit hLine hBefore
  cases before with
  | nil =>
    obtain ⟨rfl, -⟩ := List.cons.inj hSplit
    rw [hText] at hLine
    cases hLine
  | cons d before =>
    obtain ⟨x, hx, hLocation⟩ := h before line after (List.cons.inj hSplit).2 hLine
      fun x hx => hBefore x (List.mem_cons_of_mem _ hx)
    exact ⟨x, List.mem_cons_of_mem _ hx, hLocation⟩

theorem startsFresh_location (name : String) (rest : List Event) :
    StartsFresh (.location name :: rest) := by
  intro before line after hSplit hLine _
  cases before with
  | nil =>
    obtain ⟨rfl, -⟩ := List.cons.inj hSplit
    cases hLine
  | cons d before =>
    obtain ⟨rfl, -⟩ := List.cons.inj hSplit
    exact ⟨_, List.mem_cons_self, rfl⟩

variable {σ α : Type} {timing : Timing}

theorem waitBefore_whole (hTiming : timing.IsWhole) (last : Speaker) (e : Event) :
    (waitBefore timing last e).whole?.isSome := by
  cases e with
  | text character state words =>
    cases last with
    | none => rfl
    | some speaker =>
      simp only [waitBefore, gap]
      split
      · exact hTiming.speakerGapMs
      · split
        · exact hTiming.stateChangeGapMs
        · rfl
  | _ => rfl

/-- Two memories that the events to come do not tell apart: they are the same, or no line is spoken
before a location. -/
def Alike (events : List Event) (last last' : Speaker) : Prop :=
  last' = last ∨ StartsFresh events

theorem Alike.waitBefore_eq {e : Event} {rest : List Event} {last last' : Speaker}
    (h : Alike (e :: rest) last last') (timing : Timing) :
    waitBefore timing last' e = waitBefore timing last e := by
  rcases h with rfl | hFresh
  · rfl
  · cases e with
    | text character state words => exact absurd hFresh (not_startsFresh_text rfl)
    | _ => rfl

theorem Alike.memoryAfter {e : Event} {rest : List Event} {last last' : Speaker}
    (h : Alike (e :: rest) last last') :
    Alike rest (memoryAfter last e) (Timeline.memoryAfter last' e) := by
  rcases h with rfl | hFresh
  · exact .inl rfl
  · cases e with
    | text character state words => exact absurd hFresh (not_startsFresh_text rfl)
    | location name => exact .inl rfl
    | pause character state d => exact .inr (hFresh.tail rfl rfl)
    | shot name => exact .inr (hFresh.tail rfl rfl)

variable [Quantity α] {studio : Studio σ α} {stock : Stock α} {Ready : List String → σ → Prop}
  {ps qs : List String} {s s' t t' : σ}

/-- What enters an event on a clock of whole milliseconds: a whole wait, a length, and a stretch of
its clip where it has one. -/
theorem enter_of_whole {clock : Clock} {event : Event} {path : Option String} {a k : Int}
    {duration : Value} {g : Generator} {voice : Option (Voice α)} (hNow : clock.now = .int a)
    (hWait : (waitBefore timing clock.last event).whole? = some k)
    (hLength : lengthOf timing event = .ok duration)
    (hVoiced : Voiced studio timing duration clock.generator s (clipOf event path) voice g s') :
    (enter studio timing clock event path).perform s =
      (.ok (⟨event, duration, .int (a + k), voice⟩,
        ⟨.int (a + k), memoryAfter clock.last event, g⟩), s') := by
  have hStay (h : waitBefore timing clock.last event = .int 0) : clock.now = .int (a + k) := by
    rw [h] at hWait
    obtain rfl := Option.some.inj hWait
    rw [hNow, Int.add_zero]
  cases event with
  | text character state words =>
    simp only [enter, Act.perform_bind_eq_ok, Act.perform_ofExcept_eq_ok, bind_eq_ok]
    refine ⟨.int (a + k), s, ⟨⟨.int k, Value.toNumber_of_whole? hWait, ?_⟩, rfl⟩, duration, s,
      ⟨hLength, rfl⟩, ?_⟩
    · rw [hNow]
      rfl
    · rw [clipOf] at hVoiced
      cases hClip : path.filter fun s => !s.isEmpty with
      | none =>
        rw [hClip] at hVoiced
        obtain ⟨rfl, rfl, rfl⟩ := hVoiced
        rfl
      | some clip =>
        rw [hClip] at hVoiced
        obtain ⟨v, rfl, hVoice⟩ := hVoiced
        simp only [Act.perform_bind_eq_ok]
        exact ⟨(v, g), s', hVoice, rfl⟩
  | pause character state given =>
    obtain ⟨rfl, rfl, rfl⟩ := hVoiced
    rw [← hStay rfl]
    cases given <;>
      · obtain rfl := Except.ok.inj hLength
        rfl
  | location name =>
    obtain ⟨rfl, rfl, rfl⟩ := hVoiced
    obtain rfl := Except.ok.inj hLength
    rw [← hStay rfl]
    rfl
  | shot name =>
    obtain ⟨rfl, rfl, rfl⟩ := hVoiced
    obtain rfl := Except.ok.inj hLength
    rw [← hStay rfl]
    rfl

/-- An event is entered on a clock that stands elsewhere, in any other state in which its clip is
loaded, with the same entry but for its time. -/
theorem Entered.moved (hTells : studio.Tells stock Ready) (hTiming : timing.IsWhole)
    {clock clock' other : Clock} {event : Event} {path : Option String} {entry : Entry α}
    {a n : Int} (h : Entered studio timing clock s event path entry clock' s')
    (hWhole : event.IsWhole) (hs : Ready ps s) (ht : Ready qs t)
    (hClip : ∀ p, clipOf event path = some p → p ∈ ps ∧ p ∈ qs)
    (hNow : clock.now = .int (a + n)) (hOther : other.now = .int a)
    (hGenerator : other.generator = clock.generator)
    (hWait : waitBefore timing other.last event = waitBefore timing clock.last event) :
    ∃ entry₀ now t', (enter studio timing other event path).perform t =
        (.ok (entry₀, ⟨now, memoryAfter other.last event, clock'.generator⟩), t') ∧
      entry₀.Delayed n entry ∧ Ready ps s' ∧ Ready qs t' := by
  obtain ⟨k, hk⟩ := Option.isSome_iff_exists.mp (waitBefore_whole hTiming clock.last event)
  obtain ⟨d, hd⟩ := Option.isSome_iff_exists.mp (lengthOf_whole hTiming hWhole h.length_eq)
  have hStart : entry.start = .int (a + n + k) := by
    have hLater := h.later
    rw [hNow] at hLater
    exact hLater.whole hk
  have hFinish : entry.finish = .ok (.int (a + n + k + d)) :=
    Entry.finish_of_span? (p := ⟨a + n + k, d⟩) (by simp only [Entry.span?, hStart, hd])
  obtain ⟨hReady, t', hVoiced, ht'⟩ := h.voiced.again hTells hs ht hClip
  rw [← hGenerator] at hVoiced
  rw [← hWait] at hk
  refine ⟨_, _, t', enter_of_whole hOther hk h.length_eq hVoiced, ?_, hReady, ht'⟩
  refine ⟨h.event_eq, rfl, rfl, ⟨a + k, rfl, ?_⟩, a + k + d, ?_, ?_⟩
  · rw [hStart]
    congr 1
    omega
  · exact Entry.finish_of_span? (p := ⟨a + k, d⟩) (by simp only [Entry.span?, hd])
  · rw [hFinish]
    congr 2
    omega

/-- The induction over a walk: all entries are delayed by what the clock is ahead. -/
theorem walk_moved (hTells : studio.Tells stock Ready) (hTiming : timing.IsWhole)
    {items : List (Event × Option String)} {clock last other : Clock} {entries : List (Entry α)}
    {a n : Int} (h : (walk studio timing clock items).perform s = (.ok (entries, last), s'))
    (hWhole : ∀ item ∈ items, item.1.IsWhole) (hs : Ready ps s) (ht : Ready qs t)
    (hClip : ∀ item ∈ items, ∀ p, clipOf item.1 item.2 = some p → p ∈ ps ∧ p ∈ qs)
    (hNow : clock.now = .int (a + n)) (hOther : other.now = .int a)
    (hGenerator : other.generator = clock.generator)
    (hAlike : Alike (items.map Prod.fst) clock.last other.last) :
    ∃ entries₀ end₀ b t', (walk studio timing other items).perform t =
        (.ok (entries₀, end₀), t') ∧
      List.Forall₂ (Entry.Delayed n) entries₀ entries ∧ end₀.now = .int b ∧
      last.now = .int (b + n) ∧ end₀.generator = last.generator ∧ Ready ps s' ∧ Ready qs t' := by
  induction items generalizing clock other s t entries a with
  | nil =>
    obtain ⟨rfl, rfl, rfl⟩ := walk_nil_ok h
    exact ⟨[], other, a, t, rfl, .nil, hOther, hNow, hGenerator, hs, ht⟩
  | cons item rest ih =>
    obtain ⟨event, path⟩ := item
    obtain ⟨entry, between, s₁, now, more, hEntered, hFinish, hWalk, rfl⟩ := walk_cons_ok h
    obtain ⟨entry₀, start₀, t₁, hEnter, hDelayed, hs₁, ht₁⟩ :=
      hEntered.moved hTells hTiming (hWhole _ List.mem_cons_self) hs ht
        (hClip _ List.mem_cons_self) hNow hOther hGenerator (hAlike.waitBefore_eq timing)
    obtain ⟨b, hFinish₀, hLater⟩ := hDelayed.finish_eq
    obtain rfl := Except.ok.inj (hFinish.symm.trans hLater)
    obtain ⟨more₀, end₀, b', t', hMore, hDelays, hEnd₀, hLast, hSame, hs', ht'⟩ :=
      ih hWalk (fun i hi => hWhole i (List.mem_cons_of_mem _ hi)) hs₁ ht₁
        (fun i hi => hClip i (List.mem_cons_of_mem _ hi)) rfl
        (show (⟨.int b, memoryAfter other.last event, between.generator⟩ : Clock).now = .int b
          from rfl)
        rfl (by rw [hEntered.last_eq]; exact hAlike.memoryAfter)
    refine ⟨entry₀ :: more₀, end₀, b', t', ?_, .cons hDelayed hDelays, hEnd₀, hLast, hSame, hs',
      ht'⟩
    simp only [walk, Act.perform_bind_eq_ok, Act.perform_ofExcept_eq_ok, Act.perform_pure_eq_ok]
    exact ⟨_, t₁, hEnter, .int b, t₁, ⟨hFinish₀, rfl⟩, _, t', hMore, rfl, rfl⟩

theorem generate_of {script : Script} {generator : Option Generator}
    {paths : List (Option String)} {s₁ s₂ : σ} {entries : List (Entry α)} {last : Clock}
    (hCollect : (collect studio script.events).perform s = (.ok paths, s₁))
    (hLoad : (studio.preload (named paths).eraseDups).perform s₁ = (.ok (), s₂))
    (hWalk : (walk studio timing (.start (generator.getD (.ofSeed (seedOf script))))
      (script.events.zip paths)).perform s₂ = (.ok (entries, last), s')) :
    (generate studio timing script generator).perform s =
      (.ok (⟨seedOf script, last.now, entries⟩, last.generator), s') := by
  simp only [generate, Act.perform_bind_eq_ok]
  exact ⟨paths, s₁, hCollect, (), s₂, hLoad, (entries, last), s', hWalk, rfl⟩

/-- A timeline `t` is made of one for a first scene, which takes `m` milliseconds, and one for a
second, whose entries come as much later and are otherwise the same. -/
structure IsJoin (m : Int) (first second t : Timeline α) : Prop where
  first_total : first.total = .int m
  total_eq : ∃ n, second.total = .int n ∧ t.total = .int (m + n)
  entries_eq : ∃ later, t.entries = first.entries ++ later ∧
    List.Forall₂ (Entry.Delayed m) second.entries later

/-- A part of an episode that has been made can be made by itself, in any state: its clips can be
loaded, and the walk over it succeeds from the beginning of the clock. -/
theorem generate_part (hTells : studio.Tells stock Ready) (hTiming : timing.IsWhole)
    {script : Script} {paths : List (Option String)} {clock last : Clock}
    {entries : List (Entry α)} {n : Int} {loaded : List String} {s₀ s₁ : σ} (hs₀ : Ready ps s₀)
    (hCollect : (collect studio script.events).perform s₀ = (.ok paths, s₁))
    (hNamed : ∀ p ∈ named paths, stock.IsLoadable p ∧ p ∈ loaded) (hs : Ready loaded s)
    (hWalk : (walk studio timing clock (script.events.zip paths)).perform s =
      (.ok (entries, last), s'))
    (hWhole : ∀ e ∈ script.events, e.IsWhole) (hNow : clock.now = .int n)
    (hAlike : Alike script.events clock.last none) (ht : Ready qs t) :
    ∃ entries₀ b t', (generate studio timing script (some clock.generator)).perform t =
        (.ok (⟨seedOf script, .int b, entries₀⟩, last.generator), t') ∧
      List.Forall₂ (Entry.Delayed n) entries₀ entries ∧ last.now = .int (b + n) ∧
      Ready loaded s' ∧ ∃ qs', Ready qs' t' := by
  obtain ⟨-, t₁, hCollected, ht₁⟩ := collect_again hTells hs₀ ht hCollect
  obtain ⟨t₂, hLoad, ht₂⟩ := hTells.preload (named paths).eraseDups ht₁ fun p hp =>
    (hNamed p (List.mem_eraseDups.mp hp)).1
  have hClip (item : Event × Option String) (hItem : item ∈ script.events.zip paths) (p : String)
      (hp : clipOf item.1 item.2 = some p) :
      p ∈ loaded ∧ p ∈ qs ++ (named paths).eraseDups := by
    have hMem := mem_named hItem hp
    exact ⟨(hNamed p hMem).2, List.mem_append_right _ (List.mem_eraseDups.mpr hMem)⟩
  have hEvents : (script.events.zip paths).map Prod.fst = script.events :=
    List.map_fst_zip (Nat.le_of_eq (collect_length hCollect).symm)
  obtain ⟨entries₀, end₀, b, t', hAgain, hDelayed, hEnd, hLast, hGenerator, hs', ht'⟩ :=
    walk_moved hTells hTiming hWalk (fun item hItem => hWhole _ (List.of_mem_zip hItem).1) hs ht₂
      hClip (by rw [hNow, Int.zero_add])
      (show (Clock.start clock.generator).now = .int 0 from rfl) rfl (by rw [hEvents]; exact hAlike)
  have hMade : (generate studio timing script (some clock.generator)).perform t = _ :=
    generate_of hCollected hLoad hAgain
  rw [hEnd, hGenerator] at hMade
  exact ⟨entries₀, b, t', hMade, hDelayed, hLast, hs', _, ht'⟩

/-- An episode of two scenes, the second of which starts fresh, is made of the episodes of the
scenes, the second drawn with the generator that the first has left. -/
theorem generate_append (hTells : studio.Tells stock Ready) (hTiming : timing.IsWhole)
    {as bs : List Event} (hAs : ∀ e ∈ as, e.IsWhole) (hBs : ∀ e ∈ bs, e.IsWhole)
    (hFresh : StartsFresh bs) (seed seedA seedB : Option Int) {g g' : Generator}
    {timeline : Timeline α} (hs : Ready ps s)
    (h : (generate studio timing ⟨seed, as ++ bs⟩ (some g)).perform s = (.ok (timeline, g'), s'))
    (ht : Ready qs t) :
    ∃ first middle t', (generate studio timing ⟨seedA, as⟩ (some g)).perform t =
        (.ok (first, middle), t') ∧
      (∃ qs', Ready qs' t') ∧
      ∀ rs u, Ready rs u → ∃ second m u',
        (generate studio timing ⟨seedB, bs⟩ (some middle)).perform u = (.ok (second, g'), u') ∧
        IsJoin m first second timeline := by
  obtain ⟨paths, s₁, s₂, last, hCollect, hLoad, hWalk, -, hTotal, rfl⟩ := generate_ok h
  obtain ⟨hs₁, -⟩ := collect_again hTells hs hs hCollect
  have hLoadable := hTells.isLoadable _ hs₁ hLoad
  obtain ⟨_, hLoaded, hs₂⟩ := hTells.preload _ hs₁ hLoadable
  obtain ⟨-, rfl⟩ := Prod.mk.inj (hLoaded.symm.trans hLoad)
  obtain ⟨pathsA, sA, pathsB, hCollectA, hCollectB, rfl⟩ := collect_append_ok hCollect
  obtain ⟨hsA, -⟩ := collect_again hTells hs hs hCollectA
  rw [List.zip_append (collect_length hCollectA).symm] at hWalk
  obtain ⟨entriesA, between, s₃, entriesB, hWalkA, hWalkB, hEntries⟩ := walk_append_ok hWalk
  have hNamed (p : String) (hp : p ∈ named pathsA ∨ p ∈ named pathsB) :
      stock.IsLoadable p ∧ p ∈ ps ++ (named (pathsA ++ pathsB)).eraseDups := by
    have hMem : p ∈ (named (pathsA ++ pathsB)).eraseDups := by
      rw [List.mem_eraseDups, named, List.filterMap_append]
      exact List.mem_append.mpr hp
    exact ⟨hLoadable p hMem, List.mem_append_right _ hMem⟩
  obtain ⟨first, m, t', hFirst, hSame, hBetween, hs₃, hReady⟩ :=
    generate_part hTells hTiming hs
      (show (collect studio (⟨seedA, as⟩ : Script).events).perform s = _ from hCollectA)
      (fun p hp => hNamed p (.inl hp)) hs₂ hWalkA hAs
      (show (Clock.start g).now = .int 0 from rfl) (.inl rfl) ht
  obtain rfl := Entry.eq_of_forall₂_zero hSame
  rw [Int.add_zero] at hBetween
  refine ⟨_, between.generator, t', hFirst, hReady, ?_⟩
  intro rs u hu
  obtain ⟨second, n, u', hSecond, hDelayed, hLast, -, -⟩ :=
    generate_part hTells hTiming hsA
      (show (collect studio (⟨seedB, bs⟩ : Script).events).perform sA = _ from hCollectB)
      (fun p hp => hNamed p (.inr hp)) hs₃ hWalkB hBs hBetween (.inr hFresh) hu
  refine ⟨_, m, u', hSecond, rfl, ⟨n, rfl, ?_⟩, entriesB, hEntries, hDelayed⟩
  rw [hTotal, hLast, Int.add_comm]

def doorScene : List Event :=
  [.text (some "mario") (some "sad") "Hello!", .pause (some "mario") none (some (.int 250))]

def parkScene : List Event := [.shot "wide", .location "park", .text (some "luigi") none "Bye!"]

theorem door_run :
    ((generate (Library.studio callFiles sameCall) callTiming ⟨some 3, doorScene ++ parkScene⟩
      (some (.ofSeed 12))).perform ⟨.ofTiming callTiming, .empty, []⟩).1.isOk = true := by
  have hNamed : (named [some "call.wav", none, none, none, some "call.wav"]).eraseDups =
      ["call.wav"] := by decide +kernel
  simp only [generate, doorScene, parkScene, List.cons_append, List.nil_append, collect,
    Library.studio, sameCall, Act.perform_bind, Act.perform_pure, hNamed, Library.preload,
    Library.load, read_callFiles]
  decide +kernel

/-- A scene at the door and one in the park, the second made with the library that the first has
left, put together to the episode of both. -/
theorem door_isJoin :
    ∃ (timeline first second : Timeline ℚ) (g' middle : Generator) (s' t' u' : Shelf ℚ) (m : Int),
      (generate (Library.studio callFiles sameCall) callTiming ⟨some 3, doorScene ++ parkScene⟩
        (some (.ofSeed 12))).perform ⟨.ofTiming callTiming, .empty, []⟩ =
          (.ok (timeline, g'), s') ∧
      (generate (Library.studio callFiles sameCall) callTiming ⟨none, doorScene⟩
        (some (.ofSeed 12))).perform ⟨.ofTiming callTiming, .empty, []⟩ =
          (.ok (first, middle), t') ∧
      (generate (Library.studio callFiles sameCall) callTiming ⟨none, parkScene⟩
        (some middle)).perform t' = (.ok (second, g'), u') ∧
      IsJoin m first second timeline := by
  obtain ⟨⟨timeline, g'⟩, s', hRun⟩ := Act.exists_of_isOk door_run
  have hApart : Library.Apart (α := ℚ) sameCall := fun _ _ _ => ⟨rfl, rfl⟩
  have hAnswer (character : Option String) (state : String) (s : Shelf ℚ) :
      ((sameCall character state).perform s).1 = .ok (some "call.wav") := rfl
  have hTells := Library.studio_tells hApart hAnswer callFiles (.ofTiming callTiming)
  have hEmpty := Library.stocked_empty (α := ℚ) callFiles callTiming []
  have hFresh : StartsFresh parkScene := (startsFresh_location "park" _).cons rfl
  obtain ⟨first, middle, t', hFirst, ⟨paths, ht'⟩, hSecond⟩ :=
    generate_append hTells ⟨rfl, rfl, rfl, rfl, rfl, rfl⟩
      (by simp [doorScene, Event.IsWhole, Value.whole?])
      (by simp [parkScene, Event.IsWhole]) hFresh (some 3) none none hEmpty hRun hEmpty
  obtain ⟨second, m, u', hMade, hJoin⟩ := hSecond paths t' ht'
  exact ⟨timeline, first, second, g', middle, s', t', u', m, hRun, hFirst, hMade, hJoin⟩

end Timeline

end Radioplay
