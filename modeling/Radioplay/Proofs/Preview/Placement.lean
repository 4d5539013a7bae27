import Radioplay.Preview
import Radioplay.Proofs.Timeline.Clock
import Radioplay.Proofs.Window.Cut

/-! Where the voices of an episode come to lie on its bed, in whole milliseconds. Rounded to them, a
voice is no longer than its entry or the shortest stretch, whichever is longer. So where no setting
and no pause is negative and no line is shorter than that stretch, the voices lie one after another
on a bed that is long enough for all of them. -/

namespace Radioplay

/-! ### Times that are not negative -/

/-- A whole number that is not negative. -/
def Value.IsNatural (v : Value) : Prop := ∃ n : ℕ, v.whole? = some (n : ℤ)

theorem Value.IsNatural.isWhole {v : Value} (h : v.IsNatural) : v.whole?.isSome := by
  obtain ⟨n, hn⟩ := h
  rw [hn]
  rfl

theorem Value.IsNatural.nonneg {v : Value} (h : v.IsNatural) {n : ℤ} (hn : v.whole? = some n) :
    0 ≤ n := by
  obtain ⟨m, hm⟩ := h
  obtain rfl : (m : ℤ) = n := Option.some.inj (hm.symm.trans hn)
  exact Int.natCast_nonneg m

theorem Value.times_natural {n : ℕ} {v w : Value} (hv : v.IsNatural)
    (h : v.times (n : ℤ) = .ok w) : w.IsNatural := by
  obtain ⟨m, hm⟩ := hv
  cases v with
  | int k =>
    obtain rfl : k = m := Option.some.inj hm
    obtain rfl := Except.ok.inj h
    exact ⟨n * m, rfl⟩
  | bool b =>
    obtain rfl := Except.ok.inj h
    exact ⟨n * b.toNat, by cases b <;> rfl⟩
  | _ => cases hm

/-! ### Cuts in whole milliseconds -/

theorem Quantity.ofValue_rat {v : Value} {n : ℤ} (h : v.whole? = some n) :
    (ofValue v : Except Fault ℚ) = .ok n := by
  show v.toNumber >>= Number.toRat = _
  rw [Value.toNumber_of_whole? h]
  rfl

theorem Preview.bounds_rat (start length : ℚ) :
    bounds start length =
      .ok (roundEven (start * 1000), roundEven (start * 1000) + roundEven (length * 1000)) := by
  simp only [bounds, toMs, Quantity.mul_rat, Quantity.ofInt_rat]
  rfl

/-- Rounding a stretch in seconds to milliseconds does not make it longer than a whole number of
them. -/
theorem roundEven_ms_le {length : ℚ} {d : ℤ} (h : length ≤ max ((d : ℚ) / 1000) (1 / 10)) :
    roundEven (length * 1000) ≤ max d 100 := by
  apply roundEven_le
  rcases le_max_iff.mp h with hLong | hShort
  · have hd : length * 1000 ≤ (d : ℚ) := by linarith
    exact hd.trans (by exact_mod_cast le_max_left d 100)
  · have hd : length * 1000 ≤ ((100 : ℤ) : ℚ) := by norm_num; linarith
    exact hd.trans (by exact_mod_cast le_max_right d 100)

namespace Timeline

variable {σ : Type} {studio : Studio σ ℚ} {timing : Timing}

/-- Rounded to whole milliseconds, the voice of an entry is no longer than the entry, or else than
the shortest stretch. -/
def Fits (e : Entry ℚ) (v : Voice ℚ) : Prop :=
  ∃ first last d, Preview.bounds v.start v.length = .ok (first, last) ∧
    e.duration.whole? = some d ∧ last - first ≤ max d 100

theorem voiceFor_length_le {path : String} {duration : Value} {d : ℤ}
    (hDuration : duration.whole? = some d) {g g' : Generator} {v : Voice ℚ} {s s' : σ}
    (h : (voiceFor studio timing path duration g).perform s = (.ok (v, g'), s')) :
    v.length ≤ max ((d : ℚ) / 1000) (1 / 10) := by
  simp only [voiceFor, Act.perform_bind_eq_ok, Act.perform_ofExcept_eq_ok,
    Act.perform_pure_eq_ok, Prod.mk.injEq] at h
  obtain ⟨clip, _, -, target, _, ⟨hTarget, -⟩, points, _, -, ⟨⟨start, length⟩, _⟩, _, ⟨hPick, -⟩,
    ⟨rfl, -⟩, -⟩ := h
  rw [Quantity.ofValue_rat hDuration, ok_bind, Quantity.ofInt_rat,
    Quantity.div_rat_eq_ok] at hTarget
  obtain ⟨-, rfl⟩ := hTarget
  exact_mod_cast Window.pick_length_le hPick

/-- What has a voice is a line of dialogue, and the voice fits it. -/
theorem Entered.fits (hTiming : timing.IsWhole) {clock clock' : Clock} {s s' : σ} {event : Event}
    {path : Option String} {e : Entry ℚ}
    (h : Entered studio timing clock s event path e clock' s') {v : Voice ℚ}
    (hVoice : e.voice = some v) : event.isText ∧ Fits e v := by
  have hVoiced := h.voiced
  rw [hVoice] at hVoiced
  cases event with
  | text character state words =>
    have hWhole := lengthOf_whole (e := .text character state words) hTiming trivial h.length_eq
    obtain ⟨d, hd⟩ := Option.isSome_iff_exists.mp hWhole
    cases hClip : clipOf (.text character state words) path with
    | none =>
      rw [hClip] at hVoiced
      cases hVoiced.1
    | some clip =>
      rw [hClip] at hVoiced
      obtain ⟨_, ⟨⟩, hRun⟩ := hVoiced
      refine ⟨rfl, _, _, d, Preview.bounds_rat v.start v.length, hd, ?_⟩
      rw [add_sub_cancel_left]
      exact roundEven_ms_le (voiceFor_length_le hd hRun)
  | _ => cases hVoiced.1

end Timeline

/-! ### Voices on the bed -/

/-- Where the voice of an entry lies on the bed: it starts with its entry. -/
def Entry.laid? (e : Entry ℚ) : Option Span :=
  match e.start, e.voice.map fun v => Preview.bounds v.start v.length with
  | .int start, some (.ok (first, last)) => some ⟨start, last - first⟩
  | _, _ => none

namespace Timeline

/-- The places of the voices on the bed, in order. -/
def laid (t : Timeline ℚ) : List Span := t.entries.filterMap Entry.laid?

/-- Every voice has its place on the bed; it ends before any later one starts, and the bed does not
end before it. -/
structure LaidApart (t : Timeline ℚ) : Prop where
  placed : ∀ e ∈ t.entries, e.voice.isSome → e.laid?.isSome
  apart : (laid t).Pairwise fun p q => p.finish ≤ q.start
  total : ∃ total, t.total = .int total ∧ ∀ p ∈ laid t, p.finish ≤ total

/-- If an entry has a voice, the voice lies in a stretch, from the start of it on. -/
structure LiesIn (e : Entry ℚ) (p : Span) : Prop where
  placed : e.voice.isSome → e.laid?.isSome
  start_eq : ∀ q, e.laid? = some q → q.start = p.start
  finish_le : ∀ q, e.laid? = some q → q.finish ≤ p.finish

theorem liesIn_of_span? {e : Entry ℚ} {p : Span} (hSpan : e.span? = some p)
    (hFits : ∀ v, e.voice = some v → Fits e v) (hLong : e.voice.isSome → 100 ≤ p.length) :
    LiesIn e p := by
  cases hVoice : e.voice with
  | none =>
    have hLaid : e.laid? = none := by
      rw [Entry.laid?, hVoice]
      cases e.start <;> rfl
    exact ⟨by simp [hVoice], by simp [hLaid], by simp [hLaid]⟩
  | some v =>
    obtain ⟨first, last, d, hBounds, hd, hLe⟩ := hFits v hVoice
    unfold Entry.span? at hSpan
    split at hSpan
    · rename_i start length hStart hLength
      obtain rfl := Option.some.inj hSpan
      obtain rfl : d = length := Option.some.inj (hd.symm.trans hLength)
      have hLaid : e.laid? = some ⟨start, last - first⟩ := by
        simp only [Entry.laid?, hStart, hVoice, Option.map_some, hBounds]
      have hShortest : 100 ≤ d := hLong (by rw [hVoice]; rfl)
      rw [max_eq_left hShortest] at hLe
      refine ⟨fun _ => by rw [hLaid]; rfl, fun q hq => ?_, fun q hq => ?_⟩
      · rw [← Option.some.inj (hLaid.symm.trans hq)]
      · rw [← Option.some.inj (hLaid.symm.trans hq)]
        exact Int.add_le_add_left hLe start
    · cases hSpan

/-- Of stretches in order, none ends after the last. -/
theorem finish_le_last {spans : List Span}
    (hOrdered : spans.Pairwise fun p q => p.start ≤ q.start ∧ p.finish ≤ q.start)
    (hLength : ∀ p ∈ spans, 0 ≤ p.length) {p : Span} (hp : p ∈ spans) :
    p.finish ≤ spans.getLast?.elim 0 Span.finish := by
  rcases List.eq_nil_or_concat' spans with rfl | ⟨before, last, rfl⟩
  · cases hp
  · rw [List.getLast?_concat, Option.elim_some]
    rcases List.mem_append.mp hp with hBefore | hLast
    · have hEnd := ((List.pairwise_append.mp hOrdered).2.2 p hBefore last List.mem_cons_self).2
      have := hLength last (List.mem_append_right _ List.mem_cons_self)
      unfold Span.finish at hEnd ⊢
      omega
    · rw [List.mem_singleton.mp hLast]

/-- Voices that lie in the stretches of their entries lie apart, as the stretches do. -/
theorem KeepsWholeTime.laidApart {timing : Timing} {events : List Event} {t : Timeline ℚ}
    {spans : List Span} (h : KeepsWholeTime timing events t spans)
    (hOrdered : spans.Pairwise fun p q => p.start ≤ q.start ∧ p.finish ≤ q.start)
    (hLength : ∀ p ∈ spans, 0 ≤ p.length)
    (hLies : ∀ e ∈ t.entries, ∀ p, e.span? = some p → LiesIn e p) : LaidApart t := by
  have hSpan {e : Entry ℚ} (he : e ∈ t.entries) : ∃ p ∈ spans, e.span? = some p ∧ LiesIn e p := by
    have hMem : e.span? ∈ spans.map some := h.spans_eq ▸ List.mem_map_of_mem he
    obtain ⟨p, hp, hEq⟩ := List.mem_map.mp hMem
    exact ⟨p, hp, hEq.symm, hLies e he p hEq.symm⟩
  have hApart : t.entries.Pairwise fun d e =>
      ∀ p, d.span? = some p → ∀ q, e.span? = some q → p.finish ≤ q.start := by
    rw [← List.pairwise_map (f := Entry.span?) (R := fun x y =>
      ∀ p, x = some p → ∀ q, y = some q → p.finish ≤ q.start), h.spans_eq, List.pairwise_map]
    refine hOrdered.imp fun hNext p hp q hq => ?_
    rw [← Option.some.inj hp, ← Option.some.inj hq]
    exact hNext.2
  refine ⟨fun e he => ?_, ?_, _, h.total, fun q hq => ?_⟩
  · obtain ⟨p, -, -, hIn⟩ := hSpan he
    exact hIn.placed
  · refine List.pairwise_filterMap.mpr (hApart.imp_of_mem fun hd he hNext p hp q hq => ?_)
    obtain ⟨a, -, ha, hFirst⟩ := hSpan hd
    obtain ⟨b, -, hb, hSecond⟩ := hSpan he
    calc p.finish ≤ a.finish := hFirst.finish_le p hp
      _ ≤ b.start := hNext a ha b hb
      _ = q.start := (hSecond.start_eq q hq).symm
  · obtain ⟨e, he, hLaid⟩ := List.mem_filterMap.mp hq
    obtain ⟨p, hp, -, hIn⟩ := hSpan he
    exact (hIn.finish_le q hLaid).trans (finish_le_last hOrdered hLength hp)

variable {σ : Type} {studio : Studio σ ℚ} {timing : Timing}

/-- Every voice fits its entry. Where no pause is given a negative duration either, and no line
is shorter than the shortest stretch, the voices lie apart. -/
theorem generate_laidApart (hTiming : timing.Each Value.IsNatural) {script : Script}
    {generator : Option Generator} {s s' : σ} {timeline : Timeline ℚ} {g : Generator}
    (h : (generate studio timing script generator).perform s = (.ok (timeline, g), s')) :
    (∀ e ∈ timeline.entries, ∀ v, e.voice = some v → Fits e v) ∧
      ((∀ e ∈ script.events, e.Given Value.IsNatural) →
        (∀ e ∈ timeline.lines, ∀ d, e.duration.whole? = some d → 100 ≤ d) →
        LaidApart timeline) := by
  obtain ⟨_, _, _, _, -, -, hWalk, -⟩ := generate_ok h
  have hWhole : timing.IsWhole := Timing.isWhole_iff.mpr (hTiming.mono fun _ => (·.isWhole))
  have hFits {e : Entry ℚ} (he : e ∈ timeline.entries) {v : Voice ℚ} (hv : e.voice = some v) :
      e.event.isText ∧ Fits e v := by
    obtain ⟨_, _, _, _, _, hEntered⟩ := walk_entered hWalk he
    exact hEntered.fits hWhole hv
  refine ⟨fun e he v hv => (hFits he hv).2, fun hEvents hLong => ?_⟩
  have hTime := keepsTime_of_generate h
  obtain ⟨spans, hSpans⟩ := hTime.whole hWhole fun e he =>
    Event.isWhole_iff.mpr ((hEvents e he).mono fun _ => (·.isWhole))
  have hLength : ∀ p ∈ spans, 0 ≤ p.length := by
    intro p hp
    obtain ⟨e, he, hSpan⟩ := List.mem_map.mp (hSpans.spans_eq ▸ List.mem_map_of_mem hp)
    have hEvent : e.event ∈ script.events := hTime.events_eq ▸ List.mem_map_of_mem he
    have hNatural := lengthOf_each ⟨0, rfl⟩ (fun _ _ _ => Value.times_natural) hTiming
      (hEvents _ hEvent) (hTime.length_eq e he)
    exact hNatural.nonneg (Entry.length_of_span? hSpan)
  have hOrdered := hSpans.ordered
    (fun i n hn => (gapAt_each ⟨0, rfl⟩ hTiming script.events i).nonneg hn) hLength
  refine hSpans.laidApart hOrdered hLength fun e he p hp =>
    liesIn_of_span? hp (fun v hv => (hFits he hv).2) fun hVoice => ?_
  obtain ⟨v, hv⟩ := Option.isSome_iff_exists.mp hVoice
  have hLine : e ∈ timeline.lines := List.mem_filter.mpr ⟨he, (hFits he hv).1⟩
  exact hLong e hLine p.length (Entry.length_of_span? hp)

/-- Every line finds the same clip of half a second, in which nothing is quiet. -/
def brief : Studio Unit ℚ where
  resolve _ _ := return some "m.wav"
  preload _ := return
  duration _ := return 1 / 2
  points _ := return []

def briefTiming : Timing := { energySearchRange := .int 1 }

/-- Two lines with a pause between them. -/
def beat (ms : ℤ) : Script :=
  ⟨some 7,
    [.text (some "mario") none "Hi.", .pause (some "mario") none (some (.int ms)),
      .text (some "mario") none "Bye."]⟩

theorem briefTiming_natural : briefTiming.Each Value.IsNatural :=
  ⟨⟨300, rfl⟩, ⟨500, rfl⟩, ⟨800, rfl⟩, ⟨200, rfl⟩, ⟨100, rfl⟩, ⟨0, rfl⟩⟩

/-- What a script comes to: the places of its voices and the durations of its lines. -/
def outline (script : Script) : Option (List Span × List (Option ℤ)) :=
  ((generate brief briefTiming script none).perform ()).1.toOption.map fun r =>
    (laid r.1, r.1.lines.map fun e => e.duration.whole?)

theorem exists_of_outline {script : Script} {spans : List Span}
    (h : outline script = some (spans, [some 500, some 500])) :
    ∃ timeline g,
      (generate brief briefTiming script none).perform () = (.ok (timeline, g), ()) ∧
      laid timeline = spans ∧
      ∀ e ∈ timeline.lines, ∀ d, e.duration.whole? = some d → 100 ≤ d := by
  rcases hRun : (generate brief briefTiming script none).perform () with ⟨_ | ⟨timeline, g⟩, _⟩
  · rw [outline, hRun] at h
    cases h
  · rw [outline, hRun] at h
    obtain ⟨rfl, hDurations⟩ := Prod.mk.inj (Option.some.inj h)
    refine ⟨timeline, g, rfl, rfl, fun e he d hd => ?_⟩
    have hMem : some d ∈ timeline.lines.map fun e => e.duration.whole? :=
      hd ▸ List.mem_map_of_mem he
    rw [hDurations] at hMem
    obtain rfl : d = 500 := by simpa using hMem
    decide

theorem beat_laidApart :
    ∃ timeline g,
      (generate brief briefTiming (beat 200) none).perform () = (.ok (timeline, g), ()) ∧
      laid timeline = [⟨0, 500⟩, ⟨700, 500⟩] ∧
      (∀ e ∈ timeline.entries, ∀ v, e.voice = some v → Fits e v) ∧ LaidApart timeline := by
  obtain ⟨timeline, g, hRun, hLaid, hLong⟩ := exists_of_outline
    (show outline (beat 200) = some ([⟨0, 500⟩, ⟨700, 500⟩], _) by decide +kernel)
  obtain ⟨hFits, hApart⟩ := generate_laidApart briefTiming_natural hRun
  refine ⟨timeline, g, hRun, hLaid, hFits, hApart ?_ hLong⟩
  have hPause : (Value.int 200).IsNatural := ⟨200, rfl⟩
  simpa [beat, Event.Given] using hPause

/-- A pause of a negative duration turns the clock back, and the voice after it starts before the
one before it has ended. -/
theorem rewind_not_laidApart :
    ∃ timeline g, briefTiming.Each Value.IsNatural ∧
      (generate brief briefTiming (beat (-200)) none).perform () = (.ok (timeline, g), ()) ∧
      (∀ e ∈ timeline.lines, ∀ d, e.duration.whole? = some d → 100 ≤ d) ∧
      laid timeline = [⟨0, 500⟩, ⟨300, 500⟩] ∧ ¬LaidApart timeline := by
  obtain ⟨timeline, g, hRun, hLaid, hLong⟩ := exists_of_outline
    (show outline (beat (-200)) = some ([⟨0, 500⟩, ⟨300, 500⟩], _) by decide +kernel)
  refine ⟨timeline, g, briefTiming_natural, hRun, hLong, hLaid, fun h => ?_⟩
  have hApart := h.apart
  rw [hLaid] at hApart
  exact absurd hApart (by decide)

end Timeline

end Radioplay
