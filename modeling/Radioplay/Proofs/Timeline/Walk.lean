import Radioplay.Proofs.Outcome
import Radioplay.Timeline.Generate

/-! What the walk over the events does, said once for every kind of event. `Entered` holds of each
step that succeeds, and all that is proved of timelines is proved from it. -/

namespace Radioplay.Timeline

/-- The state of a line, by the script alone: one left out or left empty counts as neutral. -/
def spokenState : Option String → String
  | none => "neutral"
  | some state => if state = "" then "neutral" else state

theorem stateOf_eq (state : Option String) : stateOf state = spokenState state := by
  cases state with
  | none => rfl
  | some state => simp only [stateOf, spokenState, String.isEmpty_iff, defaultState]

/-- The clock has come from `a` to `b` by a wait, which is added unless it is nothing. -/
inductive Later (a : Number) (wait : Value) : Number → Prop
  | same (h : wait = .int 0) : Later a wait a
  | after {n b : Number} (hWait : wait.toNumber = .ok n) (hAdd : Number.add a n = .ok b) :
    Later a wait b

/-- The wait before an event; only a line of dialogue has one. -/
def waitBefore (timing : Timing) (last : Speaker) : Event → Value
  | .text character state _ => gap timing last character (stateOf state)
  | _ => .int 0

def memoryAfter (last : Speaker) : Event → Speaker
  | .text character state _ => character.map fun c => (c, stateOf state)
  | .location _ => none
  | _ => last

def lengthOf (timing : Timing) : Event → Except Fault Value
  | .text _ _ words => estimate words.toList timing.msPerWord timing.minDurationMs
  | .pause _ _ (some d) => .ok (if d.isTruthy then d else timing.pauseDurationMs)
  | .pause _ _ none => .ok timing.pauseDurationMs
  | .location _ => .ok timing.locationDurationMs
  | .shot _ => .ok (.int 0)

/-- The clip that plays with an event, by the answer for it. -/
def clipOf : Event → Option String → Option String
  | .text .., path => path.filter fun s => !s.isEmpty
  | _, _ => none

/-- Every clip that plays with an event is among those that are named for loading. -/
theorem mem_named {events : List Event} {paths : List (Option String)} {clip : String}
    {item : Event × Option String} (hItem : item ∈ events.zip paths)
    (hClip : clipOf item.1 item.2 = some clip) : clip ∈ named paths := by
  refine List.mem_filterMap.mpr ⟨item.2, (List.of_mem_zip hItem).2, ?_⟩
  unfold clipOf at hClip
  split at hClip
  · assumption
  · cases hClip

section

variable {σ α : Type}

theorem collect_length {studio : Studio σ α} {events : List Event}
    {paths : List (Option String)} {s s' : σ}
    (h : (collect studio events).perform s = (.ok paths, s')) : paths.length = events.length := by
  induction events generalizing paths s s' with
  | nil =>
    simp only [collect, Act.perform_pure_eq_ok] at h
    rw [← h.1]
    rfl
  | cons event rest ih =>
    cases event <;>
      simp only [collect, Act.perform_bind_eq_ok, Act.perform_pure_eq_ok] at h
    case text =>
      obtain ⟨_, _, -, _, _, hRest, rfl, -⟩ := h
      simp only [List.length_cons, ih hRest]
    all_goals
      obtain ⟨_, _, hRest, rfl, -⟩ := h
      simp only [List.length_cons, ih hRest]

variable [Quantity α]

/-- The stretch of a clip that an entry plays, and what is left of the generator and the state. An
entry without a clip plays nothing and leaves both alone. -/
def Voiced (studio : Studio σ α) (timing : Timing) (duration : Value) (g : Generator) (s : σ) :
    (clip : Option String) → Option (Voice α) → Generator → σ → Prop
  | none, voice, g', s' => voice = none ∧ g' = g ∧ s' = s
  | some path, voice, g', s' => ∃ v, voice = some v ∧
    (voiceFor studio timing path duration g).perform s = (.ok (v, g'), s')

/-- Entering `event` on the clock, with `path` as the answer for it, has made `entry`. -/
structure Entered (studio : Studio σ α) (timing : Timing) (clock : Clock) (s : σ) (event : Event)
    (path : Option String) (entry : Entry α) (clock' : Clock) (s' : σ) : Prop where
  event_eq : entry.event = event
  later : Later clock.now (waitBefore timing clock.last event) entry.start
  now_eq : clock'.now = entry.start
  last_eq : clock'.last = memoryAfter clock.last event
  length_eq : lengthOf timing event = .ok entry.duration
  voiced : Voiced studio timing entry.duration clock.generator s (clipOf event path) entry.voice
    clock'.generator s'

variable {studio : Studio σ α} {timing : Timing} {clock clock' : Clock} {s s' : σ}

theorem enter_text_ok {character state : Option String} {words : String} {path : Option String}
    {entry : Entry α}
    (h : (enter studio timing clock (.text character state words) path).perform s =
      (.ok (entry, clock'), s')) :
    Entered studio timing clock s (.text character state words) path entry clock' s' := by
  simp only [enter, Act.perform_bind_eq_ok, Act.perform_ofExcept_eq_ok, bind_eq_ok] at h
  obtain ⟨now, _, ⟨⟨wait, hWait, hAdd⟩, rfl⟩, duration, _, ⟨hLength, rfl⟩, h⟩ := h
  split at h
  · rename_i hClip
    simp only [Act.perform_pure_eq_ok, Prod.mk.injEq] at h
    obtain ⟨⟨rfl, rfl⟩, rfl⟩ := h
    refine ⟨rfl, .after hWait hAdd, rfl, rfl, hLength, ?_⟩
    rw [clipOf, hClip]
    exact ⟨rfl, rfl, rfl⟩
  · rename_i clip hClip
    simp only [Act.perform_bind_eq_ok, Act.perform_pure_eq_ok, Prod.mk.injEq] at h
    obtain ⟨⟨voice, g⟩, _, hVoice, ⟨rfl, rfl⟩, rfl⟩ := h
    refine ⟨rfl, .after hWait hAdd, rfl, rfl, hLength, ?_⟩
    rw [clipOf, hClip]
    exact ⟨voice, rfl, hVoice⟩

/-- What every step of a walk does. -/
theorem enter_ok {event : Event} {path : Option String} {entry : Entry α}
    (h : (enter studio timing clock event path).perform s = (.ok (entry, clock'), s')) :
    Entered studio timing clock s event path entry clock' s' := by
  cases event with
  | text character state words => exact enter_text_ok h
  | pause character state d =>
    cases h
    cases d <;> exact ⟨rfl, .same rfl, rfl, rfl, rfl, rfl, rfl, rfl⟩
  | location name =>
    cases h
    exact ⟨rfl, .same rfl, rfl, rfl, rfl, rfl, rfl, rfl⟩
  | shot name =>
    cases h
    exact ⟨rfl, .same rfl, rfl, rfl, rfl, rfl, rfl, rfl⟩

theorem walk_nil_ok {entries : List (Entry α)}
    (h : (walk studio timing clock []).perform s = (.ok (entries, clock'), s')) :
    entries = [] ∧ clock' = clock ∧ s' = s := by
  simp only [walk, Act.perform_pure_eq_ok, Prod.mk.injEq] at h
  obtain ⟨⟨rfl, rfl⟩, rfl⟩ := h
  exact ⟨rfl, rfl, rfl⟩

/-- A walk that has succeeded has entered its first event, and has gone on from the end of it. -/
theorem walk_cons_ok {event : Event} {path : Option String} {rest : List (Event × Option String)}
    {entries : List (Entry α)}
    (h : (walk studio timing clock ((event, path) :: rest)).perform s =
      (.ok (entries, clock'), s')) :
    ∃ entry between s₁ now more, Entered studio timing clock s event path entry between s₁ ∧
      entry.finish = .ok now ∧
      (walk studio timing { between with now := now } rest).perform s₁ = (.ok (more, clock'), s') ∧
      entries = entry :: more := by
  simp only [walk, Act.perform_bind_eq_ok, Act.perform_ofExcept_eq_ok, Act.perform_pure_eq_ok,
    Prod.mk.injEq] at h
  obtain ⟨⟨entry, between⟩, s₁, hEnter, now, _, ⟨hFinish, rfl⟩, ⟨more, last⟩, _, hWalk, ⟨rfl, rfl⟩,
    rfl⟩ := h
  exact ⟨entry, between, s₁, now, more, enter_ok hEnter, hFinish, hWalk, rfl⟩

/-- Every entry of a walk has been entered, somewhere along the clock. -/
theorem walk_entered {items : List (Event × Option String)} {entries : List (Entry α)}
    (h : (walk studio timing clock items).perform s = (.ok (entries, clock'), s')) {e : Entry α}
    (he : e ∈ entries) :
    ∃ before after t t' path, Entered studio timing before t e.event path e after t' := by
  induction items generalizing clock s entries with
  | nil =>
    obtain ⟨rfl, -, -⟩ := walk_nil_ok h
    cases he
  | cons item rest ih =>
    obtain ⟨event, path⟩ := item
    obtain ⟨entry, between, s₁, now, more, hEntered, -, hWalk, rfl⟩ := walk_cons_ok h
    rcases List.mem_cons.mp he with rfl | hMore
    · obtain rfl := hEntered.event_eq
      exact ⟨clock, between, s, s₁, path, hEntered⟩
    · exact ih hWalk hMore

/-- A timeline that has been made is a walk over the events, after clips for them have been asked
for and loaded. -/
theorem generate_ok {script : Script} {generator : Option Generator} {timeline : Timeline α}
    {g : Generator}
    (h : (generate studio timing script generator).perform s = (.ok (timeline, g), s')) :
    ∃ paths s₁ s₂ last,
      (collect studio script.events).perform s = (.ok paths, s₁) ∧
      (studio.preload (named paths).eraseDups).perform s₁ = (.ok (), s₂) ∧
      (walk studio timing (.start (generator.getD (.ofSeed (seedOf script))))
        (script.events.zip paths)).perform s₂ = (.ok (timeline.entries, last), s') ∧
      timeline.seed = seedOf script ∧ timeline.total = last.now ∧ g = last.generator := by
  simp only [generate, Act.perform_bind_eq_ok, Act.perform_pure_eq_ok, Prod.mk.injEq] at h
  obtain ⟨paths, s₁, hCollect, _, s₂, hLoad, ⟨entries, last⟩, _, hWalk, ⟨rfl, rfl⟩, rfl⟩ := h
  exact ⟨paths, s₁, s₂, last, hCollect, hLoad, hWalk, rfl, rfl, rfl⟩

end

end Radioplay.Timeline
