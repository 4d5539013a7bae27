import Mathlib.Algebra.BigOperators.Intervals
import Radioplay.Proofs.Timeline.Clock

/-! Pauses that are told how long to last. A pause takes the whole number of milliseconds that it is
given, and all that comes after it is counted from its end; but zero counts as nothing given, and
then, as for a pause that is given nothing, the settings say how long it lasts. Where every pause is
given another number than zero, that setting has no part in the timeline. -/

namespace Radioplay

/-- A pause is given a whole number of milliseconds, other than zero. -/
def Event.IsTold : Event → Prop
  | .pause _ _ d => ∃ n : Int, d = some (.int n) ∧ n ≠ 0
  | _ => True

namespace Timeline

/-- The gap before event `i` in whole milliseconds. -/
def gapMs (timing : Timing) (events : List Event) (i : Nat) : Int :=
  (gapAt timing events i).whole?.getD 0

def lengthMs (spans : List Span) (i : Nat) : Int := spans[i]?.elim 0 Span.length

/-- Pauses last as they are told, on the stretches that the entries take. -/
structure KeepsPauses {α : Type} (timing : Timing) (events : List Event) (t : Timeline α)
    (spans : List Span) : Prop where
  spans_eq : t.entries.map Entry.span? = spans.map some
  told : ∀ e ∈ t.entries, ∀ character state n,
    e.event = .pause character state (some (.int n)) → n ≠ 0 → e.duration = .int n
  untold : ∀ e ∈ t.entries, ∀ character state d, e.event = .pause character state d →
    d = none ∨ d = some (.int 0) → e.duration = timing.pauseDurationMs
  later : ∀ (i k : Nat) (character state : Option String) (n : Int) (p q : Span),
    events[i]? = some (.pause character state (some (.int n))) → n ≠ 0 → spans[i]? = some p →
    spans[i + 1 + k]? = some q →
    q.start = p.start + n + gapMs timing events (i + 1 + k) +
      ∑ m ∈ Finset.range k, (gapMs timing events (i + 1 + m) + lengthMs spans (i + 1 + m))

variable {σ α : Type} {timing : Timing} {events : List Event}

/-! ### Times after a pause -/

/-- A later entry starts after all the gaps and lengths from the end of an earlier one on. -/
theorem KeepsWholeTime.start_eq {t : Timeline α} {spans : List Span}
    (h : KeepsWholeTime timing events t spans) {i k : Nat} {p q : Span}
    (hp : spans[i]? = some p) (hq : spans[i + 1 + k]? = some q) :
    q.start = p.finish + gapMs timing events (i + 1 + k) +
      ∑ m ∈ Finset.range k, (gapMs timing events (i + 1 + m) + lengthMs spans (i + 1 + m)) := by
  induction k generalizing q with
  | zero =>
    obtain ⟨n, hn, hStart⟩ := h.next i p q hp hq
    rw [hStart, Finset.sum_range_zero, gapMs, Nat.add_zero, hn, Option.getD_some, Int.add_zero]
  | succ k ih =>
    have hk : i + 1 + k < spans.length := by
      have := (List.getElem?_eq_some_iff.mp hq).1
      omega
    have hBefore : spans[i + 1 + k]? = some spans[i + 1 + k] := List.getElem?_eq_getElem hk
    obtain ⟨n, hn, hStart⟩ := h.next (i + 1 + k) _ q hBefore hq
    have hGap : gapMs timing events (i + 1 + (k + 1)) = n := by
      rw [gapMs, ← Nat.add_assoc, hn, Option.getD_some]
    have hLength : lengthMs spans (i + 1 + k) = spans[i + 1 + k].length := by
      rw [lengthMs, hBefore, Option.elim_some]
    rw [hStart, Span.finish, ih hBefore, hGap, Finset.sum_range_succ, hLength]
    omega

theorem lengthOf_told {character state : Option String} {n : Int} {d : Value} (hn : n ≠ 0)
    (h : lengthOf timing (.pause character state (some (.int n))) = .ok d) : d = .int n := by
  have hTruthy : (Value.int n).isTruthy = true := by simp [Value.isTruthy, hn]
  rw [lengthOf, if_pos hTruthy] at h
  exact (Except.ok.inj h).symm

theorem lengthOf_untold {character state : Option String} {given : Option Value} {d : Value}
    (hNone : given = none ∨ given = some (.int 0))
    (h : lengthOf timing (.pause character state given) = .ok d) : d = timing.pauseDurationMs := by
  rcases hNone with rfl | rfl
  · exact (Except.ok.inj h).symm
  · exact (Except.ok.inj h).symm

theorem KeepsTime.keepsPauses {t : Timeline α} {spans : List Span}
    (h : KeepsTime timing events t) (hSpans : KeepsWholeTime timing events t spans) :
    KeepsPauses timing events t spans where
  spans_eq := hSpans.spans_eq
  told e he character state n hEvent hn :=
    lengthOf_told hn (hEvent ▸ h.length_eq e he)
  untold e he character state d hEvent hNone :=
    lengthOf_untold hNone (hEvent ▸ h.length_eq e he)
  later i k character state n p q hEvent hn hp hq := by
    obtain ⟨e, he, hPause⟩ : ∃ e, t.entries[i]? = some e ∧
        e.event = .pause character state (some (.int n)) := by
      rw [← h.events_eq, List.getElem?_map] at hEvent
      exact Option.map_eq_some_iff.mp hEvent
    have hSpan : e.span? = some p := by
      have hi := congrArg (·[i]?) hSpans.spans_eq
      simpa [he, hp] using hi
    have hDuration : e.duration = .int n :=
      lengthOf_told hn (hPause ▸ h.length_eq e (List.mem_of_getElem? he))
    have hLength : p.length = n := by
      have hWhole := Entry.length_of_span? hSpan
      rw [hDuration] at hWhole
      exact (Option.some.inj hWhole).symm
    rw [hSpans.start_eq hp hq, Span.finish, hLength]

/-! ### Timelines without the setting -/

variable [Quantity α] {studio : Studio σ α}

theorem enter_of_isTold {event : Event} (h : event.IsTold) (v : Value) (clock : Clock)
    (path : Option String) :
    enter studio { timing with pauseDurationMs := v } clock event path =
      enter studio timing clock event path := by
  cases event with
  | pause character state d =>
    obtain ⟨n, rfl, hn⟩ := h
    have hTruthy : (Value.int n).isTruthy = true := by simp [Value.isTruthy, hn]
    simp only [enter, hTruthy, if_true]
  | _ => rfl

theorem walk_of_isTold {items : List (Event × Option String)} (h : ∀ item ∈ items, item.1.IsTold)
    (v : Value) (clock : Clock) :
    walk studio { timing with pauseDurationMs := v } clock items =
      walk studio timing clock items := by
  induction items generalizing clock with
  | nil => rfl
  | cons item rest ih =>
    obtain ⟨hItem, hRest⟩ := List.forall_mem_cons.mp h
    simp only [walk, enter_of_isTold hItem, ih hRest]

theorem generate_of_isTold {script : Script} (h : ∀ e ∈ script.events, e.IsTold) (v : Value)
    (generator : Option Generator) :
    generate studio { timing with pauseDurationMs := v } script generator =
      generate studio timing script generator := by
  have hItems (paths : List (Option String)) :
      ∀ item ∈ script.events.zip paths, item.1.IsTold :=
    fun item hItem => h _ (List.of_mem_zip hItem).1
  simp only [generate, walk_of_isTold (hItems _)]

/-- Every pause lasts as it is told, and so stands for the time that the rest is counted from. Where
every pause is told how long to last, another setting for pauses makes the same timeline. -/
theorem generate_keepsPauses (hTiming : timing.IsWhole) {script : Script}
    (hEvents : ∀ e ∈ script.events, e.IsWhole) {generator : Option Generator} {s s' : σ}
    {timeline : Timeline α} {g : Generator}
    (h : (generate studio timing script generator).perform s = (.ok (timeline, g), s')) :
    (∃ spans, KeepsPauses timing script.events timeline spans) ∧
      ((∀ e ∈ script.events, e.IsTold) → ∀ v,
        (generate studio { timing with pauseDurationMs := v } script generator).perform s =
          (.ok (timeline, g), s')) := by
  have hTime := keepsTime_of_generate h
  obtain ⟨spans, hSpans⟩ := hTime.whole hTiming hEvents
  refine ⟨⟨spans, hTime.keepsPauses hSpans⟩, fun hTold v => ?_⟩
  rw [generate_of_isTold hTold, h]

/-- Two lines with a long breath between them, and a step back in time at the end. -/
def breath : Script :=
  ⟨some 1,
    [.text (some "mario") none "Hi.", .pause (some "mario") none (some (.int 250)), .shot "wide",
      .text (some "luigi") none "So here we are.",
      .pause (some "luigi") none (some (.int (-1500)))]⟩

def breathTimeline : Timeline Rat :=
  ⟨1, .int 650,
    (breath.events.zip [(0, 500), (500, 250), (750, 0), (950, 1200), (2150, -1500)]).map
      fun (e, start, length) => ⟨e, .int length, .int start, none⟩⟩

set_option maxRecDepth 8000 in
theorem breath_keepsPauses :
    (generate mute {} breath none).perform () = (.ok (breathTimeline, .ofSeed 1), ()) ∧
      (∃ spans, KeepsPauses {} breath.events breathTimeline spans) ∧
      (generate mute { pauseDurationMs := .int 4000 } breath none).perform () =
        (.ok (breathTimeline, .ofSeed 1), ()) := by
  have hRun : (generate mute {} breath none).perform () =
      (.ok (breathTimeline, .ofSeed 1), ()) := by rfl
  have hEvents : ∀ e ∈ breath.events, e.IsWhole := by simp [breath, Event.IsWhole, Value.whole?]
  have hTold : ∀ e ∈ breath.events, e.IsTold := by simp [breath, Event.IsTold]
  obtain ⟨hPauses, hSame⟩ := generate_keepsPauses ⟨rfl, rfl, rfl, rfl, rfl, rfl⟩ hEvents hRun
  exact ⟨hRun, hPauses, hSame hTold (.int 4000)⟩

/-- A pause that is given zero lasts as long as one that is given nothing. -/
theorem zero_pause_lasts :
    ∃ timeline g, (generate mute {}
        ⟨some 1, [.pause (some "mario") (some "neutral") (some (.int 0))]⟩ none).perform () =
          (.ok (timeline, g), ()) ∧
      timeline.entries =
        [⟨.pause (some "mario") (some "neutral") (some (.int 0)), .int 800, .int 0, none⟩] ∧
      timeline.total = .int 800 :=
  ⟨_, _, rfl, rfl, rfl⟩

end Timeline

end Radioplay
