import Radioplay.Proofs.Timeline.Gap

/-! The law of the clock. A timeline has one entry for each event; each starts where the one before
it ends, after the gap that the history of events calls for, and the timeline ends with its last
entry. Times of whole milliseconds stay whole, and with gaps and durations that are not negative
entries follow one another without overlapping. -/

namespace Radioplay

def Value.whole? : Value → Option Int
  | .int n => some n
  | .bool b => some (if b then 1 else 0)
  | _ => none

theorem Value.toNumber_of_whole? {v : Value} {n : Int} (h : v.whole? = some n) :
    v.toNumber = .ok (.int n) := by
  cases v <;> simp_all [Value.whole?, Value.toNumber]

/-- The settings in milliseconds are whole numbers. -/
structure Timing.IsWhole (t : Timing) : Prop where
  msPerWord : t.msPerWord.whole?.isSome
  minDurationMs : t.minDurationMs.whole?.isSome
  pauseDurationMs : t.pauseDurationMs.whole?.isSome
  speakerGapMs : t.speakerGapMs.whole?.isSome
  stateChangeGapMs : t.stateChangeGapMs.whole?.isSome
  locationDurationMs : t.locationDurationMs.whole?.isSome

/-- A pause that is given a duration is given a whole number of milliseconds. -/
def Event.IsWhole : Event → Prop
  | .pause _ _ (some d) => d.whole?.isSome
  | _ => True

/-- `P` holds of every setting in milliseconds. -/
structure Timing.Each (P : Value → Prop) (t : Timing) : Prop where
  msPerWord : P t.msPerWord
  minDurationMs : P t.minDurationMs
  pauseDurationMs : P t.pauseDurationMs
  speakerGapMs : P t.speakerGapMs
  stateChangeGapMs : P t.stateChangeGapMs
  locationDurationMs : P t.locationDurationMs

/-- `P` holds of the duration that a pause is given, if it is given one. -/
def Event.Given (P : Value → Prop) : Event → Prop
  | .pause _ _ (some d) => P d
  | _ => True

theorem Timing.Each.mono {P Q : Value → Prop} (hPQ : ∀ v, P v → Q v) {t : Timing}
    (h : t.Each P) : t.Each Q :=
  ⟨hPQ _ h.1, hPQ _ h.2, hPQ _ h.3, hPQ _ h.4, hPQ _ h.5, hPQ _ h.6⟩

theorem Event.Given.mono {P Q : Value → Prop} (hPQ : ∀ v, P v → Q v) {e : Event}
    (h : e.Given P) : e.Given Q := by
  cases e with
  | pause character state d =>
    cases d with
    | none => trivial
    | some d => exact hPQ d h
  | _ => trivial

theorem Timing.isWhole_iff {t : Timing} : t.IsWhole ↔ t.Each fun v => v.whole?.isSome :=
  ⟨fun h => ⟨h.1, h.2, h.3, h.4, h.5, h.6⟩, fun h => ⟨h.1, h.2, h.3, h.4, h.5, h.6⟩⟩

theorem Event.isWhole_iff {e : Event} : e.IsWhole ↔ e.Given fun v => v.whole?.isSome := by
  cases e with
  | pause character state d => cases d <;> exact Iff.rfl
  | _ => exact Iff.rfl

/-- A stretch of the clock, in whole milliseconds. -/
structure Span where
  start : Int
  length : Int
  deriving DecidableEq, Repr

def Span.finish (p : Span) : Int := p.start + p.length

def Entry.span? {α : Type} (e : Entry α) : Option Span :=
  match e.start, e.duration.whole? with
  | .int start, some length => some ⟨start, length⟩
  | _, _ => none

theorem Entry.finish_of_span? {α : Type} {e : Entry α} {p : Span} (h : e.span? = some p) :
    e.finish = .ok (.int p.finish) := by
  unfold span? at h
  split at h
  · rename_i start length hStart hLength
    obtain rfl := Option.some.inj h
    rw [finish, Value.toNumber_of_whole? hLength, hStart]
    rfl
  · cases h

theorem Entry.length_of_span? {α : Type} {e : Entry α} {p : Span} (h : e.span? = some p) :
    e.duration.whole? = some p.length := by
  unfold span? at h
  split at h
  · rename_i start length hStart hLength
    rw [hLength, ← Option.some.inj h]
  · cases h

theorem Entry.start_of_span? {α : Type} {e : Entry α} {p : Span} {a : Int}
    (h : e.span? = some p) (hStart : e.start = .int a) : p.start = a := by
  rw [span?, hStart] at h
  split at h
  · rename_i start length hInt hLength
    obtain rfl := Option.some.inj h
    exact (Number.int.inj hInt).symm
  · cases h

namespace Timeline

/-! ### The clock of a walk -/

/-- Entries follow one another on the clock from `now` to `last`, after the events `before`. -/
inductive Follows {α : Type} (timing : Timing) :
    (before : List Event) → (now : Number) → List (Entry α) → (last : Number) → Prop
  | nil {before : List Event} {now : Number} : Follows timing before now [] now
  | cons {before : List Event} {now next last : Number} {e : Entry α} {rest : List (Entry α)}
      (hLater : Later now (waitBefore timing (memory before) e.event) e.start)
      (hLength : lengthOf timing e.event = .ok e.duration) (hFinish : e.finish = .ok next)
      (hRest : Follows timing (before ++ [e.event]) next rest last) :
      Follows timing before now (e :: rest) last

/-- The induction over a walk: the clock remembers what the events before it come to. -/
theorem walk_follows {σ α : Type} [Quantity α] {studio : Studio σ α} {timing : Timing}
    {events before : List Event} {paths : List (Option String)} {clock last : Clock} {s s' : σ}
    {entries : List (Entry α)} (hPaths : paths.length = events.length)
    (hLast : clock.last = memory before)
    (h : (walk studio timing clock (events.zip paths)).perform s = (.ok (entries, last), s')) :
    entries.map Entry.event = events ∧ Follows timing before clock.now entries last.now := by
  induction events generalizing before paths clock s entries with
  | nil =>
    obtain ⟨rfl, rfl, -⟩ := walk_nil_ok h
    exact ⟨rfl, .nil⟩
  | cons event rest ih =>
    obtain ⟨path, paths, rfl⟩ := List.exists_cons_of_length_eq_add_one hPaths
    obtain ⟨entry, between, s₁, now, more, hEntered, hFinish, hWalk, rfl⟩ := walk_cons_ok h
    obtain ⟨hEvent, hLater, -, hMemory, hLength, -⟩ := hEntered
    subst hEvent
    have hNext : { between with now := now }.last = memory (before ++ [entry.event]) := by
      rw [hMemory, hLast, memory_append_singleton]
    obtain ⟨hMap, hFollows⟩ := ih (by simpa using hPaths) hNext hWalk
    refine ⟨by rw [List.map_cons, hMap], .cons ?_ hLength hFinish hFollows⟩
    rw [← hLast]
    exact hLater

/-- The entries of a timeline stand for the events of its script, in order. -/
theorem generate_events {σ α : Type} [Quantity α] {studio : Studio σ α} {timing : Timing}
    {script : Script} {generator : Option Generator} {s s' : σ} {timeline : Timeline α}
    {g : Generator}
    (h : (generate studio timing script generator).perform s = (.ok (timeline, g), s')) :
    timeline.entries.map Entry.event = script.events := by
  obtain ⟨paths, s₁, s₂, last, hCollect, -, hWalk, -⟩ := generate_ok h
  exact (walk_follows (collect_length hCollect) (show _ = memory [] from rfl) hWalk).1

/-- Where the clock stands before entry `i` and its gap. -/
def endBefore {α : Type} (now : Number) (entries : List (Entry α)) : Nat → Except Fault Number
  | 0 => .ok now
  | i + 1 => (entries[i]?.map Entry.finish).getD (.ok now)

variable {α : Type} {timing : Timing}

theorem Follows.later {before : List Event} {now last : Number} {entries : List (Entry α)}
    (h : Follows timing before now entries last) {i : Nat} {e : Entry α}
    (hEntry : entries[i]? = some e) :
    ∃ t, endBefore now entries i = .ok t ∧
      Later t (gapAt timing (before ++ entries.map Entry.event) (before.length + i)) e.start := by
  induction h generalizing i with
  | nil => simp at hEntry
  | @cons before now next last e' rest hLater hLength hFinish hRest ih =>
    cases i with
    | zero =>
      obtain rfl : e' = e := by simpa using hEntry
      refine ⟨now, rfl, ?_⟩
      rw [← waitBefore_memory timing (e := e'.event) (by simp)]
      simpa using hLater
    | succ i =>
      obtain ⟨t, hEnd, hGap⟩ := ih (by simpa using hEntry)
      refine ⟨t, ?_, by simpa [Nat.add_comm, Nat.add_left_comm] using hGap⟩
      cases i with
      | zero =>
        rw [endBefore, List.getElem?_cons_zero, Option.map_some, Option.getD_some, hFinish]
        exact hEnd
      | succ i =>
        have hi : i < rest.length := by
          have := List.getElem?_eq_some_iff.mp (by simpa using hEntry : rest[i + 1]? = some e)
          obtain ⟨hi, -⟩ := this
          omega
        simp only [endBefore, List.getElem?_cons_succ, List.getElem?_eq_getElem hi] at hEnd ⊢
        exact hEnd

theorem Follows.length_eq {before : List Event} {now last : Number} {entries : List (Entry α)}
    (h : Follows timing before now entries last) {e : Entry α} (hEntry : e ∈ entries) :
    lengthOf timing e.event = .ok e.duration := by
  induction h with
  | nil => cases hEntry
  | cons _ hLength _ _ ih =>
    rcases List.mem_cons.mp hEntry with rfl | hRest
    · exact hLength
    · exact ih hRest

theorem Follows.last_eq {before : List Event} {now last : Number} {entries : List (Entry α)}
    (h : Follows timing before now entries last) :
    endBefore now entries entries.length = .ok last := by
  induction h with
  | nil => rfl
  | @cons before now next last e rest _ _ hFinish _ ih =>
    cases rest with
    | nil => simpa [endBefore, hFinish] using ih
    | cons d rest => simpa [endBefore] using ih

/-- The law of the clock over the history of events, for times of any kind. -/
structure KeepsTime (timing : Timing) (events : List Event) (t : Timeline α) : Prop where
  events_eq : t.entries.map Entry.event = events
  length_eq : ∀ e ∈ t.entries, lengthOf timing e.event = .ok e.duration
  first : ∀ e, t.entries[0]? = some e → e.start = .int 0
  next : ∀ i d e, t.entries[i]? = some d → t.entries[i + 1]? = some e →
    ∃ now, d.finish = .ok now ∧ Later now (gapAt timing events (i + 1)) e.start
  total : ∀ e, t.entries.getLast? = some e → e.finish = .ok t.total
  empty : t.entries = [] → t.total = .int 0

theorem Later.whole {a : Int} {wait : Value} {b : Number} (h : Later (.int a) wait b) {n : Int}
    (hWait : wait.whole? = some n) : b = .int (a + n) := by
  cases h with
  | same hNone =>
    subst hNone
    obtain rfl : 0 = n := Option.some.inj hWait
    rw [Int.add_zero]
  | after hNumber hAdd =>
    rw [Value.toNumber_of_whole? hWait] at hNumber
    obtain rfl := Except.ok.inj hNumber
    exact (Except.ok.inj hAdd).symm

theorem gapAt_zero (timing : Timing) (events : List Event) : gapAt timing events 0 = .int 0 := by
  unfold gapAt
  split
  · rename_i hLine
    simp [lineBefore?] at hLine
  · rfl

theorem Follows.keepsTime {t : Timeline α}
    (h : Follows timing [] (.int 0) t.entries t.total) :
    KeepsTime timing (t.entries.map Entry.event) t where
  events_eq := rfl
  length_eq _ hEntry := h.length_eq hEntry
  first e hEntry := by
    obtain ⟨now, hNow, hLater⟩ := h.later hEntry
    obtain rfl := Except.ok.inj hNow
    rw [List.nil_append, List.length_nil, Nat.add_zero, gapAt_zero] at hLater
    exact hLater.whole rfl
  next i d e hBefore hEntry := by
    obtain ⟨now, hNow, hLater⟩ := h.later hEntry
    rw [endBefore, hBefore] at hNow
    refine ⟨now, hNow, ?_⟩
    simpa using hLater
  total e hEntry := by
    have hLast := h.last_eq
    obtain ⟨n, hn⟩ : ∃ n, t.entries.length = n + 1 := by
      apply Nat.exists_eq_succ_of_ne_zero
      intro hZero
      rw [List.length_eq_zero_iff.mp hZero] at hEntry
      cases hEntry
    rw [List.getLast?_eq_getElem?, hn, Nat.add_sub_cancel] at hEntry
    rw [hn, endBefore, hEntry] at hLast
    exact hLast
  empty hNone := by
    have hLast := h.last_eq
    rw [hNone] at hLast
    exact (Except.ok.inj hLast).symm

/-! ### Whole times -/

/-- The law of the clock in whole milliseconds, for the stretches that the entries take. -/
structure KeepsWholeTime (timing : Timing) (events : List Event) (t : Timeline α)
    (spans : List Span) : Prop where
  spans_eq : t.entries.map Entry.span? = spans.map some
  first : ∀ p, spans[0]? = some p → p.start = 0
  finish : ∀ (i : Nat) (e : Entry α) (p : Span), t.entries[i]? = some e → spans[i]? = some p →
    e.finish = .ok (.int p.finish)
  next : ∀ i p q, spans[i]? = some p → spans[i + 1]? = some q →
    ∃ n, (gapAt timing events (i + 1)).whole? = some n ∧ q.start = p.finish + n
  total : t.total = .int (spans.getLast?.elim 0 Span.finish)
  ordered : (∀ i n, (gapAt timing events i).whole? = some n → 0 ≤ n) →
    (∀ p ∈ spans, 0 ≤ p.length) →
    spans.Pairwise fun p q => p.start ≤ q.start ∧ p.finish ≤ q.start

theorem times_whole {n : Int} {v w : Value} (hv : v.whole?.isSome) (h : v.times n = .ok w) :
    w.whole?.isSome := by
  cases v <;> simp only [Value.whole?, Option.isSome_none, Bool.false_eq_true] at hv
  all_goals
    obtain rfl := Except.ok.inj h
    rfl

/-- What holds of zero, of the settings and of what pauses are given, and is kept by products,
holds of every duration. -/
theorem lengthOf_each {P : Value → Prop} (hZero : P (.int 0))
    (hTimes : ∀ (n : Nat) (v w : Value), P v → v.times n = .ok w → P w) {e : Event} {d : Value}
    (hTiming : timing.Each P) (hEvent : e.Given P) (h : lengthOf timing e = .ok d) : P d := by
  cases e with
  | text character state words =>
    simp only [lengthOf, estimate, Value.greater, bind_eq_ok, pure_eq_ok] at h
    obtain ⟨spoken, hSpoken, longer, -, rfl⟩ := h
    split
    · exact hTimes _ _ _ hTiming.msPerWord hSpoken
    · exact hTiming.minDurationMs
  | pause character state given =>
    cases given with
    | none =>
      obtain rfl := Except.ok.inj h
      exact hTiming.pauseDurationMs
    | some given =>
      obtain rfl := Except.ok.inj h
      split
      · exact hEvent
      · exact hTiming.pauseDurationMs
  | location name =>
    obtain rfl := Except.ok.inj h
    exact hTiming.locationDurationMs
  | shot name =>
    obtain rfl := Except.ok.inj h
    exact hZero

theorem gapAt_each {P : Value → Prop} (hZero : P (.int 0)) (hTiming : timing.Each P)
    (events : List Event) (i : Nat) : P (gapAt timing events i) := by
  unfold gapAt
  split
  · split
    · exact hTiming.speakerGapMs
    · split
      · exact hTiming.stateChangeGapMs
      · exact hZero
  · exact hZero

theorem lengthOf_whole {e : Event} {d : Value} (hTiming : timing.IsWhole) (hEvent : e.IsWhole)
    (h : lengthOf timing e = .ok d) : d.whole?.isSome :=
  lengthOf_each (P := fun v => v.whole?.isSome) rfl (fun _ _ _ => times_whole)
    (Timing.isWhole_iff.mp hTiming) (Event.isWhole_iff.mp hEvent) h

theorem gapAt_whole (hTiming : timing.IsWhole) (events : List Event) (i : Nat) :
    (gapAt timing events i).whole?.isSome :=
  gapAt_each (P := fun v => v.whole?.isSome) rfl (Timing.isWhole_iff.mp hTiming) events i

theorem span?_of_start {e : Entry α} {a : Int} (hStart : e.start = .int a)
    (hLength : e.duration.whole?.isSome) :
    ∃ p, e.span? = some p ∧ p.start = a := by
  obtain ⟨n, hn⟩ := Option.isSome_iff_exists.mp hLength
  exact ⟨⟨a, n⟩, by simp only [Entry.span?, hStart, hn], rfl⟩

/-- Along whole times each entry starts at a whole time, and so ends at one. -/
theorem KeepsTime.span? {events : List Event} {t : Timeline α} (h : KeepsTime timing events t)
    (hTiming : timing.IsWhole) (hEvents : ∀ e ∈ events, e.IsWhole) {i : Nat} {e : Entry α}
    (hEntry : t.entries[i]? = some e) : ∃ p, e.span? = some p := by
  have hLength {d : Entry α} (hd : d ∈ t.entries) : d.duration.whole?.isSome := by
    have hEvent : d.event ∈ events := h.events_eq ▸ List.mem_map_of_mem hd
    exact lengthOf_whole hTiming (hEvents _ hEvent) (h.length_eq d hd)
  induction i generalizing e with
  | zero =>
    obtain ⟨p, hp, -⟩ :=
      span?_of_start (h.first e hEntry) (hLength (List.mem_of_getElem? hEntry))
    exact ⟨p, hp⟩
  | succ i ih =>
    obtain ⟨hi, -⟩ := List.getElem?_eq_some_iff.mp hEntry
    have hBefore : t.entries[i]? = some t.entries[i] := List.getElem?_eq_getElem (by omega)
    obtain ⟨p, hp⟩ := ih hBefore
    obtain ⟨now, hNow, hLater⟩ := h.next i _ e hBefore hEntry
    rw [Entry.finish_of_span? hp] at hNow
    obtain rfl := Except.ok.inj hNow
    obtain ⟨n, hn⟩ := Option.isSome_iff_exists.mp (gapAt_whole hTiming events (i + 1))
    obtain ⟨q, hq, -⟩ :=
      span?_of_start (hLater.whole hn) (hLength (List.mem_of_getElem? hEntry))
    exact ⟨q, hq⟩

theorem exists_map_some {β γ : Type} {f : β → Option γ} {l : List β}
    (h : ∀ x ∈ l, ∃ y, f x = some y) : ∃ ys : List γ, l.map f = ys.map some := by
  induction l with
  | nil => exact ⟨[], rfl⟩
  | cons x l ih =>
    obtain ⟨y, hy⟩ := h x List.mem_cons_self
    obtain ⟨ys, hys⟩ := ih fun z hz => h z (List.mem_cons_of_mem _ hz)
    exact ⟨y :: ys, by rw [List.map_cons, List.map_cons, hy, hys]⟩

/-- Stretches that follow one another after gaps, neither with a negative length, are in order. -/
theorem ordered_of_next {spans : List Span}
    (hNext : ∀ i p q, spans[i]? = some p → spans[i + 1]? = some q → p.finish ≤ q.start)
    (hLength : ∀ p ∈ spans, 0 ≤ p.length) :
    spans.Pairwise fun p q => p.start ≤ q.start ∧ p.finish ≤ q.start := by
  have hLe {p : Span} (hp : p ∈ spans) : p.start ≤ p.finish := by
    have := hLength p hp
    unfold Span.finish
    omega
  have hFinish (i k : Nat) (hk : i + 1 + k < spans.length) :
      spans[i].finish ≤ spans[i + 1 + k].start := by
    induction k with
    | zero =>
      exact hNext i _ _ (List.getElem?_eq_getElem (by omega)) (List.getElem?_eq_getElem hk)
    | succ k ih =>
      have h1 := ih (by omega)
      have h2 := hLe (List.getElem_mem (show i + 1 + k < spans.length by omega))
      have h3 := hNext (i + 1 + k) _ _ (List.getElem?_eq_getElem (by omega))
        (List.getElem?_eq_getElem hk)
      omega
  apply List.pairwise_iff_getElem.mpr
  intro i j hi hj hij
  obtain ⟨k, rfl⟩ : ∃ k, j = i + 1 + k := ⟨j - (i + 1), by omega⟩
  have h1 := hFinish i k hj
  have h2 := hLe (List.getElem_mem hi)
  exact ⟨by omega, h1⟩

/-- Whole settings and whole pauses keep every time whole. -/
theorem KeepsTime.whole {events : List Event} {t : Timeline α} (h : KeepsTime timing events t)
    (hTiming : timing.IsWhole) (hEvents : ∀ e ∈ events, e.IsWhole) :
    ∃ spans, KeepsWholeTime timing events t spans := by
  obtain ⟨spans, hSpans⟩ : ∃ spans : List Span, t.entries.map Entry.span? = spans.map some := by
    apply exists_map_some
    intro e he
    obtain ⟨i, hi⟩ := List.getElem?_of_mem he
    exact h.span? hTiming hEvents hi
  have hEntry {i : Nat} {p : Span} (hp : spans[i]? = some p) :
      ∃ e, t.entries[i]? = some e ∧ e.span? = some p := by
    have hi := congrArg (·[i]?) hSpans
    simpa [hp] using hi
  have hNext (i : Nat) (p q : Span) (hp : spans[i]? = some p) (hq : spans[i + 1]? = some q) :
      ∃ n, (gapAt timing events (i + 1)).whole? = some n ∧ q.start = p.finish + n := by
    obtain ⟨d, hd, hdp⟩ := hEntry hp
    obtain ⟨e, he, heq⟩ := hEntry hq
    obtain ⟨now, hNow, hLater⟩ := h.next i d e hd he
    rw [Entry.finish_of_span? hdp] at hNow
    obtain rfl := Except.ok.inj hNow
    obtain ⟨n, hn⟩ := Option.isSome_iff_exists.mp (gapAt_whole hTiming events (i + 1))
    exact ⟨n, hn, Entry.start_of_span? heq (hLater.whole hn)⟩
  refine ⟨spans, hSpans, ?_, ?_, hNext, ?_, ?_⟩
  · intro p hp
    obtain ⟨e, he, hep⟩ := hEntry hp
    exact Entry.start_of_span? hep (h.first e he)
  · intro i e p he hp
    obtain ⟨e', he', hep⟩ := hEntry hp
    obtain rfl : e' = e := Option.some.inj (he'.symm.trans he)
    exact Entry.finish_of_span? hep
  · have hLast : t.entries.getLast?.map Entry.span? = spans.getLast?.map some := by
      rw [← List.getLast?_map, ← List.getLast?_map, hSpans]
    cases hp : spans.getLast? with
    | none =>
      rw [hp, Option.map_none, Option.map_eq_none_iff, List.getLast?_eq_none_iff] at hLast
      exact h.empty hLast
    | some p =>
      rw [hp, Option.map_some, Option.map_eq_some_iff] at hLast
      obtain ⟨e, he, hep⟩ := hLast
      have hTotal := h.total e he
      rw [Entry.finish_of_span? hep] at hTotal
      exact (Except.ok.inj hTotal).symm
  · intro hGaps hLengths
    apply ordered_of_next _ hLengths
    intro i p q hp hq
    obtain ⟨n, hn, hStart⟩ := hNext i p q hp hq
    have := hGaps _ n hn
    omega

theorem keepsTime_of_generate {σ : Type} [Quantity α] {studio : Studio σ α} {script : Script}
    {generator : Option Generator} {s s' : σ} {timeline : Timeline α} {g : Generator}
    (h : (generate studio timing script generator).perform s = (.ok (timeline, g), s')) :
    KeepsTime timing script.events timeline := by
  obtain ⟨paths, s₁, s₂, last, hCollect, -, hWalk, -, hTotal, -⟩ := generate_ok h
  obtain ⟨hMap, hFollows⟩ :=
    walk_follows (collect_length hCollect) (show _ = memory [] from rfl) hWalk
  rw [← hMap]
  exact Follows.keepsTime (hTotal ▸ hFollows)

/-- Every timeline that is made keeps the law of the clock; where settings and pauses are whole
numbers of milliseconds, so are all its times, and its entries do not overlap. -/
theorem generate_keepsTime {σ : Type} [Quantity α] {studio : Studio σ α} {script : Script}
    {generator : Option Generator} {s s' : σ} {timeline : Timeline α} {g : Generator}
    (h : (generate studio timing script generator).perform s = (.ok (timeline, g), s')) :
    KeepsTime timing script.events timeline ∧
      (timing.IsWhole → (∀ e ∈ script.events, e.IsWhole) →
        ∃ spans, KeepsWholeTime timing script.events timeline spans) := by
  have hTime := keepsTime_of_generate h
  exact ⟨hTime, fun hTiming hEvents => hTime.whole hTiming hEvents⟩

def mute : Studio Unit Rat where
  resolve _ _ := return none
  preload _ := return
  duration path := Act.fail (.clipNotLoaded path)
  points _ := return []

def quarrel : Script :=
  ⟨some 7,
    [.location "park", .text (some "mario") (some "") "Hello there.",
      .pause (some "mario") (some "neutral") (some (.int 250)),
      .text (some "mario") (some "neutral") "Well?", .text (some "mario") none "Hm.",
      .text (some "mario") (some "angry") "Hey, you over there!", .shot "wide",
      .text (some "luigi") (some "sad") "Yeah...", .location "castle",
      .text (some "mario") (some "sad") "So here we are."]⟩

def quarrelTimeline : Timeline Rat :=
  ⟨7, .int 5050,
    (quarrel.events.zip
      [(0, 0), (0, 600), (600, 250), (850, 500), (1350, 500), (1950, 1200), (3150, 0), (3350, 500),
        (3850, 0), (3850, 1200)]).map fun (e, start, length) => ⟨e, .int length, .int start, none⟩⟩

set_option maxRecDepth 8000 in
/-- Mario's first three lines are in one state, so no gap is between them. -/
theorem quarrel_keepsTime :
    (generate mute {} quarrel none).perform () = (.ok (quarrelTimeline, .ofSeed 7), ()) ∧
      KeepsTime {} quarrel.events quarrelTimeline ∧
      ∃ spans, KeepsWholeTime {} quarrel.events quarrelTimeline spans := by
  have hRun : (generate mute {} quarrel none).perform () =
      (.ok (quarrelTimeline, .ofSeed 7), ()) := by rfl
  obtain ⟨hTime, hWhole⟩ := generate_keepsTime hRun
  refine ⟨hRun, hTime, hWhole ⟨rfl, rfl, rfl, rfl, rfl, rfl⟩ ?_⟩
  simp [quarrel, Event.IsWhole, Value.whole?]

end Timeline

end Radioplay
