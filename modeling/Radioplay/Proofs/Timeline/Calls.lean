import Mathlib.Data.List.Basic
import Radioplay.Proofs.Timeline.Walk

/-! What a studio is asked while a timeline is made. A studio that writes down its calls answers as
it does without, and its log has three parts: one question for each line of dialogue, then one
loading of the clips found, then what the walk asks about these clips. -/

namespace Radioplay

/-! ### First occurrences -/

/-- The members of a list, each once, in the order in which they first occur. -/
structure IsFirst (firsts xs : List String) : Prop where
  nodup : firsts.Nodup
  mem_iff : ∀ x, x ∈ firsts ↔ x ∈ xs
  ordered : firsts.Pairwise fun x y => xs.idxOf x < xs.idxOf y

/-- What a filter leaves stays in order. -/
theorem idxOf_lt_of_filter {p : String → Bool} {x y : String} (hx : p x) (hy : p y)
    {xs : List String} (h : (xs.filter p).idxOf x < (xs.filter p).idxOf y) :
    xs.idxOf x < xs.idxOf y := by
  induction xs with
  | nil => exact h
  | cons z rest ih =>
    by_cases hzx : z = x
    · subst hzx
      have hne : z ≠ y := by
        rintro rfl
        exact absurd h (Nat.lt_irrefl _)
      rw [List.idxOf_cons_self, List.idxOf_cons_ne rest hne]
      exact Nat.succ_pos _
    · by_cases hzy : z = y
      · subst hzy
        rw [List.filter_cons_of_pos hy, List.idxOf_cons_self] at h
        exact absurd h (Nat.not_lt_zero _)
      · rw [List.idxOf_cons_ne rest hzx, List.idxOf_cons_ne rest hzy]
        apply Nat.succ_lt_succ
        apply ih
        by_cases hz : p z
        · rw [List.filter_cons_of_pos hz, List.idxOf_cons_ne _ hzx, List.idxOf_cons_ne _ hzy] at h
          exact Nat.lt_of_succ_lt_succ h
        · rwa [List.filter_cons_of_neg hz] at h

theorem isFirst_eraseDups (xs : List String) : IsFirst xs.eraseDups xs := by
  cases xs with
  | nil => exact ⟨List.nodup_nil, fun x => Iff.rfl, List.Pairwise.nil⟩
  | cons x rest =>
    -- What comes after the first has been filtered; a filter keeps the order of what it leaves.
    have hRest := isFirst_eraseDups (rest.filter fun y => !y == x)
    have hKept {y : String} (hy : y ∈ (rest.filter fun y => !y == x).eraseDups) : !y == x :=
      (List.mem_filter.mp ((hRest.mem_iff y).mp hy)).2
    have hOther {y : String} (hy : y ∈ (rest.filter fun y => !y == x).eraseDups) : x ≠ y := by
      have hNot := hKept hy
      rintro rfl
      simp at hNot
    refine ⟨?_, fun y => List.mem_eraseDups, ?_⟩
    · rw [List.eraseDups_cons]
      exact List.nodup_cons.mpr ⟨fun hx => hOther hx rfl, hRest.nodup⟩
    · rw [List.eraseDups_cons]
      refine List.pairwise_cons.mpr ⟨fun y hy => ?_, hRest.ordered.imp_of_mem ?_⟩
      · rw [List.idxOf_cons_self, List.idxOf_cons_ne rest (hOther hy)]
        exact Nat.succ_pos _
      · intro y z hy hz hLess
        rw [List.idxOf_cons_ne rest (hOther hy), List.idxOf_cons_ne rest (hOther hz)]
        exact Nat.succ_lt_succ (idxOf_lt_of_filter (hKept hy) (hKept hz) hLess)
termination_by xs.length
decreasing_by
  have hLength := List.length_filter_le (fun y => !y == x) rest
  simp only [List.length_cons]
  omega

/-! ### Calls -/

/-- A call to a studio, and how it came out. -/
inductive Call (α : Type) where
  | resolve (character : Option String) (state : String) (outcome : Except Fault (Option String))
  | preload (paths : List String) (outcome : Except Fault Unit)
  | duration (path : String) (outcome : Except Fault α)
  | points (path : String) (outcome : Except Fault (List α))

namespace Call

variable {α : Type}

/-- A question about a loaded clip. -/
def IsAbout (path : String) : Call α → Prop
  | .duration path' _ => path' = path
  | .points path' _ => path' = path
  | _ => False

/-- How a call has failed. -/
def fault? : Call α → Option Fault
  | .resolve _ _ (.error fault) => some fault
  | .preload _ (.error fault) => some fault
  | .duration _ (.error fault) => some fault
  | .points _ (.error fault) => some fault
  | _ => none

/-- What a call has asked to be loaded. -/
def preloaded? : Call α → Option (List String)
  | .preload paths _ => some paths
  | _ => none

theorem IsAbout.preloaded?_eq {path : String} {q : Call α} (h : q.IsAbout path) :
    q.preloaded? = none := by
  cases q with
  | preload => cases h
  | _ => rfl

end Call

variable {σ α β γ : Type}

/-- A step that is written down with its outcome. -/
def Act.recorded (a : Act σ β) (call : Except Fault β → Call α) : Act (σ × List (Call α)) β :=
  ExceptT.mk fun (s, calls) =>
    let (outcome, s') := a.perform s
    (outcome, s', calls ++ [call outcome])

theorem Act.perform_recorded (a : Act σ β) (call : Except Fault β → Call α) (s : σ)
    (calls : List (Call α)) :
    (a.recorded call).perform (s, calls) =
      ((a.perform s).1, (a.perform s).2, calls ++ [call (a.perform s).1]) := rfl

/-- The studio that does the same and writes its calls down. -/
def Studio.recording (studio : Studio σ α) : Studio (σ × List (Call α)) α where
  resolve character state :=
    (studio.resolve character state).recorded (.resolve character state)
  preload paths := (studio.preload paths).recorded (.preload paths)
  duration path := (studio.duration path).recorded (.duration path)
  points path := (studio.points path).recorded (.points path)

theorem Studio.perform_recording_preload (studio : Studio σ α) (paths : List String) (s : σ)
    (calls : List (Call α)) :
    (studio.recording.preload paths).perform (s, calls) =
      (((studio.preload paths).perform s).1, ((studio.preload paths).perform s).2,
        calls ++ [.preload paths ((studio.preload paths).perform s).1]) := rfl

/-- Every question for a clip is answered, if only by nothing. -/
def Studio.AlwaysAnswers (studio : Studio σ α) : Prop :=
  ∀ character state s, ((studio.resolve character state).perform s).1.isOk

/-- From states in which `I` holds, `a'` does what `a` does and writes down calls for which `P`
holds, and `I` still holds. -/
def Traced (I : σ → Prop) (P : Call α → Prop) (a' : Act (σ × List (Call α)) β) (a : Act σ β) :
    Prop :=
  ∀ s calls, I s → I (a.perform s).2 ∧ ∃ more, (∀ q ∈ more, P q) ∧
    a'.perform (s, calls) = ((a.perform s).1, (a.perform s).2, calls ++ more)

namespace Traced

variable {I : σ → Prop} {P : Call α → Prop}

theorem ofExcept (e : Except Fault β) :
    Traced I P (Act.ofExcept e) (Act.ofExcept e) := by
  intro s calls hs
  exact ⟨hs, [], List.forall_mem_nil _, by rw [List.append_nil]; rfl⟩

theorem pure (x : β) : Traced I P (Pure.pure x) (Pure.pure x) := ofExcept (.ok x)

theorem recorded {a : Act σ β} {call : Except Fault β → Call α}
    (h : ∀ s, I s → I (a.perform s).2 ∧ P (call (a.perform s).1)) :
    Traced I P (a.recorded call) a := by
  intro s calls hs
  exact ⟨(h s hs).1, [call (a.perform s).1], List.forall_mem_singleton.mpr (h s hs).2, rfl⟩

theorem bind {a' : Act (σ × List (Call α)) β} {a : Act σ β} {f' : β → Act (σ × List (Call α)) γ}
    {f : β → Act σ γ} (ha : Traced I P a' a) (hf : ∀ x, Traced I P (f' x) (f x)) :
    Traced I P (a' >>= f') (a >>= f) := by
  intro s calls hs
  obtain ⟨hI, more, hP, hRun⟩ := ha s calls hs
  rw [Act.perform_bind, Act.perform_bind, hRun]
  rcases hOutcome : a.perform s with ⟨fault | x, s'⟩
  · rw [hOutcome] at hI
    exact ⟨hI, more, hP, rfl⟩
  · rw [hOutcome] at hI
    obtain ⟨hI', more', hP', hRun'⟩ := hf x s' (calls ++ more) hI
    refine ⟨hI', more ++ more', List.forall_mem_append.mpr ⟨hP, hP'⟩, ?_⟩
    rw [← List.append_assoc]
    exact hRun'

end Traced

namespace Timeline

variable {studio : Studio σ α}

/-! ### The questions -/

/-- What is asked for an event that was given an answer: for a line its character's clip in its
state, and in the neutral one where that is left out or left empty. -/
def askOf : Event × Option String → Option (Call α)
  | (.text character state _, answer) => some (.resolve character (spokenState state) (.ok answer))
  | _ => none

def asks (events : List Event) (answers : List (Option String)) : List (Call α) :=
  (events.zip answers).filterMap askOf

theorem filterMap_preloaded?_asks (events : List Event) (answers : List (Option String)) :
    (asks events answers : List (Call α)).filterMap Call.preloaded? = [] := by
  rw [asks, List.filterMap_filterMap, List.filterMap_eq_nil_iff]
  rintro ⟨event, answer⟩ -
  cases event <;> rfl

/-- Each line of dialogue is asked for once, and only lines are. -/
theorem collect_recording (hAnswers : studio.AlwaysAnswers) (events : List Event) (s : σ)
    (calls : List (Call α)) :
    ∃ answers s', (collect studio events).perform s = (.ok answers, s') ∧
      answers.length = events.length ∧
      (∀ item ∈ events.zip answers, item.1.isText = false → item.2 = none) ∧
      (collect studio.recording events).perform (s, calls) =
        (.ok answers, s', calls ++ asks events answers) := by
  induction events generalizing s calls with
  | nil =>
    refine ⟨[], s, rfl, rfl, List.forall_mem_nil _, ?_⟩
    rw [asks, List.zip_nil_left, List.filterMap_nil, List.append_nil]
    rfl
  | cons event rest ih =>
    cases event
    case text character state words =>
      obtain ⟨answer, s₁, hAnswer⟩ := Act.exists_of_isOk (hAnswers character (stateOf state) s)
      obtain ⟨answers, s', hRun, hLength, hNone, hRecorded⟩ :=
        ih s₁ (calls ++ [.resolve character (stateOf state) (.ok answer)])
      refine ⟨answer :: answers, s', ?_, ?_, ?_, ?_⟩
      · simp only [collect, Act.perform_bind, hAnswer, hRun, Act.perform_pure]
      · rw [List.length_cons, List.length_cons, hLength]
      · rw [List.zip_cons_cons, List.forall_mem_cons]
        exact ⟨fun hText => (by cases hText), hNone⟩
      · have hAsked : (studio.recording.resolve character (stateOf state)).perform (s, calls) =
            (.ok answer, s₁, calls ++ [.resolve character (stateOf state) (.ok answer)]) := by
          rw [Studio.recording, Act.perform_recorded, hAnswer]
        simp only [collect, Act.perform_bind, hAsked, hRecorded, Act.perform_pure, asks,
          List.zip_cons_cons, List.filterMap_cons, askOf, ← stateOf_eq, List.append_assoc,
          List.singleton_append]
    all_goals
      obtain ⟨answers, s', hRun, hLength, hNone, hRecorded⟩ := ih s calls
      refine ⟨none :: answers, s', ?_, ?_, ?_, ?_⟩
      · simp only [collect, Act.perform_bind, hRun, Act.perform_pure]
      · rw [List.length_cons, List.length_cons, hLength]
      · rw [List.zip_cons_cons, List.forall_mem_cons]
        exact ⟨fun _ => rfl, hNone⟩
      · simp only [collect, Act.perform_bind, hRecorded, Act.perform_pure, asks,
          List.zip_cons_cons, List.filterMap_cons, askOf]

/-! ### The walk -/

variable [Quantity α] {timing : Timing} {I : σ → Prop} {P : Call α → Prop}

theorem traced_voiceFor {path : String}
    (hDuration : Traced I P (studio.recording.duration path) (studio.duration path))
    (hPoints : Traced I P (studio.recording.points path) (studio.points path))
    (duration : Value) (g : Generator) :
    Traced I P (voiceFor studio.recording timing path duration g)
      (voiceFor studio timing path duration g) := by
  unfold voiceFor
  refine hDuration.bind fun clip => ?_
  refine (Traced.ofExcept _).bind fun target => ?_
  refine hPoints.bind fun points => ?_
  exact (Traced.ofExcept _).bind fun cut => .pure _

theorem traced_enter {event : Event} {path : Option String}
    (hDuration : ∀ clip, clipOf event path = some clip →
      Traced I P (studio.recording.duration clip) (studio.duration clip))
    (hPoints : ∀ clip, clipOf event path = some clip →
      Traced I P (studio.recording.points clip) (studio.points clip)) (clock : Clock) :
    Traced I P (enter studio.recording timing clock event path)
      (enter studio timing clock event path) := by
  cases event with
  | text character state words =>
    refine (Traced.ofExcept _).bind fun now => ?_
    refine (Traced.ofExcept _).bind fun duration => ?_
    rw [clipOf] at hDuration hPoints
    cases hClip : path.filter fun s => !s.isEmpty with
    | none => exact .pure _
    | some clip =>
      exact (traced_voiceFor (hDuration clip hClip) (hPoints clip hClip) duration _).bind
        fun voice => .pure _
  | pause => exact .pure _
  | location => exact .pure _
  | shot => exact .pure _

theorem traced_walk {items : List (Event × Option String)}
    (hDuration : ∀ item ∈ items, ∀ clip, clipOf item.1 item.2 = some clip →
      Traced I P (studio.recording.duration clip) (studio.duration clip))
    (hPoints : ∀ item ∈ items, ∀ clip, clipOf item.1 item.2 = some clip →
      Traced I P (studio.recording.points clip) (studio.points clip)) (clock : Clock) :
    Traced I P (walk studio.recording timing clock items) (walk studio timing clock items) := by
  induction items generalizing clock with
  | nil => exact .pure _
  | cons item rest ih =>
    obtain ⟨hFirst, hRest⟩ := List.forall_mem_cons.mp hDuration
    obtain ⟨hFirst', hRest'⟩ := List.forall_mem_cons.mp hPoints
    refine (traced_enter hFirst hFirst' clock).bind fun entered => ?_
    refine (Traced.ofExcept _).bind fun now => ?_
    exact (ih hRest hRest' _).bind fun walked => .pure _

theorem voiceFor_path {path : String} {duration : Value} {g g' : Generator} {v : Voice α} {s s' : σ}
    (h : (voiceFor studio timing path duration g).perform s = (.ok (v, g'), s')) :
    v.path = path := by
  simp only [voiceFor, Act.perform_bind_eq_ok, Act.perform_pure_eq_ok, Prod.mk.injEq] at h
  obtain ⟨_, _, -, _, _, -, _, _, -, _, _, -, ⟨rfl, -⟩, -⟩ := h
  rfl

theorem Voiced.path_eq {duration : Value} {g g' : Generator} {s s' : σ} {clip : Option String}
    {voice : Option (Voice α)} (h : Voiced studio timing duration g s clip voice g' s') :
    voice.map Voice.path = clip := by
  cases clip with
  | none =>
    obtain ⟨rfl, -, -⟩ := h
    rfl
  | some path =>
    obtain ⟨v, rfl, hVoice⟩ := h
    rw [Option.map_some, voiceFor_path hVoice]

theorem clipOf_eq_some {event : Event} {answer : Option String} {path : String} :
    clipOf event answer = some path ↔ event.isText ∧ answer = some path ∧ path ≠ "" := by
  cases event <;> simp [clipOf, Event.isText, Option.filter_eq_some_iff]

/-- An entry stands for its event, and plays a clip exactly if the event is a line of dialogue for
which one was found. -/
structure Plays (item : Event × Option String) (entry : Entry α) : Prop where
  event_eq : entry.event = item.1
  voice_iff : ∀ path, entry.voice.map Voice.path = some path ↔
    item.1.isText ∧ item.2 = some path ∧ path ≠ ""

theorem walk_plays {items : List (Event × Option String)} {clock last : Clock}
    {entries : List (Entry α)} {s s' : σ}
    (h : (walk studio timing clock items).perform s = (.ok (entries, last), s')) :
    List.Forall₂ Plays items entries := by
  induction items generalizing clock s entries with
  | nil =>
    obtain ⟨rfl, -, -⟩ := walk_nil_ok h
    exact .nil
  | cons item rest ih =>
    obtain ⟨entry, _, _, _, more, hEntered, -, hRest, rfl⟩ := walk_cons_ok h
    refine .cons ⟨hEntered.event_eq, fun path => ?_⟩ (ih hRest)
    rw [hEntered.voiced.path_eq, clipOf_eq_some]

/-! ### The whole log -/

/-- The answers for the events of a script, and the clips to load for them: those answered, each in
the place of its first answer. -/
structure Finds (events : List Event) (answers : List (Option String)) (paths : List String) :
    Prop where
  length_eq : answers.length = events.length
  not_asked : ∀ item ∈ events.zip answers, item.1.isText = false → item.2 = none
  isFirst : IsFirst paths (named answers)
  mem_paths : ∀ path, path ∈ paths ↔ some path ∈ answers ∧ path ≠ ""

/-- What is found out, loaded and asked while a timeline is made. -/
structure Discovers (studio : Studio σ α) (timing : Timing) (script : Script)
    (generator : Option Generator) (s : σ) (answers : List (Option String)) (paths : List String)
    (loaded : Except Fault Unit) (queries : List (Call α)) : Prop where
  finds : Finds script.events answers paths
  /-- The log: each line of dialogue is asked for, the clips are loaded, and the rest are questions
  about them. Keeping it makes no difference. -/
  calls : (generate studio.recording timing script generator).perform (s, []) =
    (((generate studio timing script generator).perform s).1,
      ((generate studio timing script generator).perform s).2,
      asks script.events answers ++ .preload paths loaded :: queries)
  about : ∀ q ∈ queries, ∃ path ∈ paths, q.IsAbout path
  /-- A loading that fails is the end of it, with the same fault. -/
  of_failed : ∀ fault, loaded = .error fault →
    queries = [] ∧ ((generate studio timing script generator).perform s).1 = .error fault
  of_made : ∀ timeline g,
    ((generate studio timing script generator).perform s).1 = .ok (timeline, g) →
      loaded = .ok () ∧ List.Forall₂ Plays (script.events.zip answers) timeline.entries

/-- There is one loading. -/
theorem Discovers.preloaded {script : Script} {generator : Option Generator} {s : σ}
    {answers : List (Option String)} {paths : List String} {loaded : Except Fault Unit}
    {queries : List (Call α)}
    (h : Discovers studio timing script generator s answers paths loaded queries) :
    ((generate studio.recording timing script generator).perform (s, [])).2.2.filterMap
      Call.preloaded? = [paths] := by
  have hQueries : queries.filterMap Call.preloaded? = [] := by
    rw [List.filterMap_eq_nil_iff]
    intro q hq
    obtain ⟨path, -, hAbout⟩ := h.about q hq
    exact hAbout.preloaded?_eq
  rw [h.calls, List.filterMap_append, filterMap_preloaded?_asks, List.nil_append,
    List.filterMap_cons, hQueries]
  rfl

theorem mem_named_iff {answers : List (Option String)} {path : String} :
    path ∈ named answers ↔ some path ∈ answers ∧ path ≠ "" := by
  simp [named, Option.filter_eq_some_iff]

/-- What holds of the questions about the clips that a walk plays holds of its whole log. -/
theorem traced_clips (timing : Timing) (events : List Event) {answers : List (Option String)}
    (hDuration : ∀ s path, I s → path ∈ named answers → I ((studio.duration path).perform s).2 ∧
      P (.duration path ((studio.duration path).perform s).1))
    (hPoints : ∀ s path, I s → path ∈ named answers → I ((studio.points path).perform s).2 ∧
      P (.points path ((studio.points path).perform s).1)) (clock : Clock) :
    Traced I (fun q => P q ∧ ∃ path ∈ (named answers).eraseDups, q.IsAbout path)
      (walk studio.recording timing clock (events.zip answers))
      (walk studio timing clock (events.zip answers)) := by
  apply traced_walk
  · intro item hItem clip hClip
    have hNamed := mem_named hItem hClip
    apply Traced.recorded
    intro s hs
    obtain ⟨hI, hP⟩ := hDuration s clip hs hNamed
    exact ⟨hI, hP, clip, List.mem_eraseDups.mpr hNamed, rfl⟩
  · intro item hItem clip hClip
    have hNamed := mem_named hItem hClip
    apply Traced.recorded
    intro s hs
    obtain ⟨hI, hP⟩ := hPoints s clip hs hNamed
    exact ⟨hI, hP, clip, List.mem_eraseDups.mpr hNamed, rfl⟩

/-- Whatever holds of all states after a loading, and of the answers of a studio in such states,
holds of all calls in the log after the loading. -/
theorem exists_discovers (hAnswers : studio.AlwaysAnswers) {J : List String → σ → Prop}
    (hPreload : ∀ paths s s', (studio.preload paths).perform s = (.ok (), s') → J paths s')
    (hDuration : ∀ paths s path, J paths s → path ∈ paths →
      J paths ((studio.duration path).perform s).2 ∧
        P (.duration path ((studio.duration path).perform s).1))
    (hPoints : ∀ paths s path, J paths s → path ∈ paths →
      J paths ((studio.points path).perform s).2 ∧
        P (.points path ((studio.points path).perform s).1))
    (script : Script) (generator : Option Generator) (s : σ) :
    ∃ answers paths loaded queries,
      Discovers studio timing script generator s answers paths loaded queries ∧
        ∀ q ∈ queries, P q := by
  obtain ⟨answers, s₁, hCollect, hLength, hNone, hCollected⟩ :=
    collect_recording hAnswers script.events s []
  rw [List.nil_append] at hCollected
  have hFinds : Finds script.events answers (named answers).eraseDups :=
    ⟨hLength, hNone, isFirst_eraseDups _, fun path => List.mem_eraseDups.trans mem_named_iff⟩
  have hLoaded := studio.perform_recording_preload (named answers).eraseDups s₁
    (asks script.events answers)
  rcases hLoad : (studio.preload (named answers).eraseDups).perform s₁ with ⟨fault | _, s₂⟩
  · rw [hLoad] at hLoaded
    have hMade : (generate studio timing script generator).perform s = (.error fault, s₂) := by
      simp only [generate, Act.perform_bind, hCollect, hLoad]
    refine ⟨answers, _, .error fault, [], ⟨hFinds, ?_, ?_, ?_, ?_⟩, List.forall_mem_nil _⟩
    · rw [hMade]
      simp only [generate, Act.perform_bind, hCollected, hLoaded]
    · exact List.forall_mem_nil _
    · rintro _ ⟨rfl⟩
      exact ⟨rfl, by rw [hMade]⟩
    · intro timeline g hOk
      rw [hMade] at hOk
      cases hOk
  · rw [hLoad] at hLoaded
    have hMem {path : String} (h : path ∈ named answers) : path ∈ (named answers).eraseDups :=
      List.mem_eraseDups.mpr h
    -- The walk starts with the log of the questions and the loading behind it.
    obtain ⟨-, queries, hQueries, hWalk⟩ :=
      traced_clips (P := P) timing script.events
        (fun s path hs h => hDuration _ s path hs (hMem h))
        (fun s path hs h => hPoints _ s path hs (hMem h))
        (.start (generator.getD (.ofSeed (seedOf script)))) s₂
        (asks script.events answers ++ [.preload (named answers).eraseDups (.ok ())])
        (hPreload _ _ _ hLoad)
    refine ⟨answers, _, .ok (), queries, ⟨hFinds, ?_, fun q hq => (hQueries q hq).2, ?_, ?_⟩,
      fun q hq => (hQueries q hq).1⟩
    · simp only [generate, Act.perform_bind, hCollect, hLoad, hCollected, hLoaded, hWalk]
      rcases (walk studio timing (.start (generator.getD (.ofSeed (seedOf script))))
        (script.events.zip answers)).perform s₂ with ⟨fault | walked, s₃⟩
      · simp
      · simp
    · rintro fault ⟨⟩
    · intro timeline g hOk
      rcases hMade : (generate studio timing script generator).perform s with ⟨outcome, s'⟩
      rw [hMade] at hOk
      obtain rfl : outcome = .ok (timeline, g) := hOk
      obtain ⟨answers', _, _, _, hCollect', -, hEntries, -⟩ := generate_ok hMade
      obtain rfl : answers' = answers := by
        rw [hCollect] at hCollect'
        cases hCollect'
        rfl
      exact ⟨rfl, walk_plays hEntries⟩

end Timeline

end Radioplay
