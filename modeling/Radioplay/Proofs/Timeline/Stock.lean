import Radioplay.Proofs.Timeline.Walk

/-! Studios that answer by what they are asked alone. Such a studio has a stock: a clip for each
character and state, the paths that can be loaded, and what is told of a clip once it is loaded. Its
answers are the same in every state that it can be in, so a walk over events that has succeeded in
one state succeeds in the others. -/

namespace Radioplay

/-- What a studio has to tell, apart from any state. -/
structure Stock (α : Type) where
  answer : Option String → String → Except Fault (Option String)
  IsLoadable : String → Prop
  length : String → Except Fault α
  points : String → Except Fault (List α)

/-- A studio tells what its stock says. `Ready paths s` is said of the states it can be in when the
paths have been loaded. -/
structure Studio.Tells {σ α : Type} (studio : Studio σ α) (stock : Stock α)
    (Ready : List String → σ → Prop) : Prop where
  resolve : ∀ {ps s} character state, Ready ps s →
    ∃ s', (studio.resolve character state).perform s = (stock.answer character state, s') ∧
      Ready ps s'
  preload : ∀ {ps s} paths, Ready ps s → (∀ p ∈ paths, stock.IsLoadable p) →
    ∃ s', (studio.preload paths).perform s = (.ok (), s') ∧ Ready (ps ++ paths) s'
  isLoadable : ∀ {ps s s'} paths, Ready ps s → (studio.preload paths).perform s = (.ok (), s') →
    ∀ p ∈ paths, stock.IsLoadable p
  duration : ∀ {ps s p}, Ready ps s → p ∈ ps →
    ∃ s', (studio.duration p).perform s = (stock.length p, s') ∧ Ready ps s'
  points : ∀ {ps s p}, Ready ps s → p ∈ ps →
    ∃ s', (studio.points p).perform s = (stock.points p, s') ∧ Ready ps s'

namespace Timeline

variable {σ α : Type} {studio : Studio σ α} {stock : Stock α} {Ready : List String → σ → Prop}
  {ps qs : List String} {s s' t : σ}

/-- Answers for events that have been given once are given again, in any other state. -/
theorem collect_again (hTells : studio.Tells stock Ready) {events : List Event}
    {paths : List (Option String)} (hs : Ready ps s) (ht : Ready qs t)
    (h : (collect studio events).perform s = (.ok paths, s')) :
    Ready ps s' ∧ ∃ t', (collect studio events).perform t = (.ok paths, t') ∧ Ready qs t' := by
  induction events generalizing paths s t with
  | nil =>
    obtain ⟨rfl, rfl⟩ := Act.perform_pure_eq_ok.mp h
    exact ⟨hs, t, rfl, ht⟩
  | cons event rest ih =>
    cases event <;>
      simp only [collect, Act.perform_bind_eq_ok, Act.perform_pure_eq_ok] at h ⊢
    case text character state words =>
      obtain ⟨path, s₁, hAnswer, more, _, hRest, rfl, rfl⟩ := h
      obtain ⟨s₂, hAsked, hs₁⟩ := hTells.resolve character (stateOf state) hs
      obtain ⟨hSame, rfl⟩ := Prod.mk.inj (hAsked.symm.trans hAnswer)
      obtain ⟨t₁, hAgain, ht₁⟩ := hTells.resolve character (stateOf state) ht
      obtain ⟨hReady, t', hMore, ht'⟩ := ih hs₁ ht₁ hRest
      exact ⟨hReady, t', ⟨path, t₁, hSame ▸ hAgain, more, t', hMore, rfl, rfl⟩, ht'⟩
    all_goals
      obtain ⟨more, _, hRest, rfl, rfl⟩ := h
      obtain ⟨hReady, t', hMore, ht'⟩ := ih hs ht hRest
      exact ⟨hReady, t', ⟨more, t', hMore, rfl, rfl⟩, ht'⟩

theorem collect_append_ok {xs ys : List Event} {paths : List (Option String)}
    (h : (collect studio (xs ++ ys)).perform s = (.ok paths, s')) :
    ∃ before s₁ after, (collect studio xs).perform s = (.ok before, s₁) ∧
      (collect studio ys).perform s₁ = (.ok after, s') ∧ paths = before ++ after := by
  induction xs generalizing paths s with
  | nil => exact ⟨[], s, paths, rfl, h, rfl⟩
  | cons event rest ih =>
    cases event <;>
      simp only [List.cons_append, collect, Act.perform_bind_eq_ok, Act.perform_pure_eq_ok] at h ⊢
    case text character state words =>
      obtain ⟨path, s₁, hAnswer, more, _, hRest, rfl, rfl⟩ := h
      obtain ⟨before, s₂, after, hBefore, hAfter, rfl⟩ := ih hRest
      exact ⟨path :: before, s₂, after, ⟨path, s₁, hAnswer, before, s₂, hBefore, rfl, rfl⟩, hAfter,
        rfl⟩
    all_goals
      obtain ⟨more, _, hRest, rfl, rfl⟩ := h
      obtain ⟨before, s₂, after, hBefore, hAfter, rfl⟩ := ih hRest
      exact ⟨none :: before, s₂, after, ⟨before, s₂, hBefore, rfl, rfl⟩, hAfter, rfl⟩

variable [Quantity α] {timing : Timing}

theorem walk_append_ok {xs ys : List (Event × Option String)} {clock last : Clock}
    {entries : List (Entry α)}
    (h : (walk studio timing clock (xs ++ ys)).perform s = (.ok (entries, last), s')) :
    ∃ before between s₁ after,
      (walk studio timing clock xs).perform s = (.ok (before, between), s₁) ∧
      (walk studio timing between ys).perform s₁ = (.ok (after, last), s') ∧
      entries = before ++ after := by
  induction xs generalizing clock s entries with
  | nil => exact ⟨[], clock, s, entries, rfl, h, rfl⟩
  | cons item rest ih =>
    obtain ⟨event, path⟩ := item
    simp only [List.cons_append, walk, Act.perform_bind_eq_ok, Act.perform_ofExcept_eq_ok,
      Act.perform_pure_eq_ok, Prod.mk.injEq] at h ⊢
    obtain ⟨⟨entry, clock₁⟩, s₁, hEnter, now, _, ⟨hFinish, rfl⟩, ⟨more, _⟩, _, hWalk, ⟨rfl, rfl⟩,
      rfl⟩ := h
    obtain ⟨before, between, s₂, after, hBefore, hAfter, rfl⟩ := ih hWalk
    exact ⟨entry :: before, between, s₂, after,
      ⟨(entry, clock₁), s₁, hEnter, now, s₁, ⟨hFinish, rfl⟩, (before, between), s₂, hBefore,
        ⟨rfl, rfl⟩, rfl⟩, hAfter, rfl⟩

/-- The stretch drawn for a line is drawn again in any other state in which its clip is loaded. -/
theorem voiceFor_again (hTells : studio.Tells stock Ready) {path : String} {duration : Value}
    {g g' : Generator} {voice : Voice α} (hs : Ready ps s) (ht : Ready qs t) (hp : path ∈ ps)
    (hq : path ∈ qs)
    (h : (voiceFor studio timing path duration g).perform s = (.ok (voice, g'), s')) :
    Ready ps s' ∧
      ∃ t', (voiceFor studio timing path duration g).perform t = (.ok (voice, g'), t') ∧
        Ready qs t' := by
  simp only [voiceFor, Act.perform_bind_eq_ok, Act.perform_ofExcept_eq_ok,
    Act.perform_pure_eq_ok] at h ⊢
  obtain ⟨clip, s₁, hClip, target, _, ⟨hTarget, rfl⟩, points, s₂, hPoints, window, _,
    ⟨hPick, rfl⟩, hVoice, rfl⟩ := h
  obtain ⟨s₃, hTold, hs₁⟩ := hTells.duration hs hp
  obtain ⟨hLength, rfl⟩ := Prod.mk.inj (hTold.symm.trans hClip)
  obtain ⟨s₄, hFound, hs₂⟩ := hTells.points hs₁ hp
  obtain ⟨hSame, rfl⟩ := Prod.mk.inj (hFound.symm.trans hPoints)
  obtain ⟨t₁, hToldAgain, ht₁⟩ := hTells.duration ht hq
  obtain ⟨t₂, hFoundAgain, ht₂⟩ := hTells.points ht₁ hq
  exact ⟨hs₂, t₂, ⟨clip, t₁, hLength ▸ hToldAgain, target, t₁, ⟨hTarget, rfl⟩, points, t₂,
    hSame ▸ hFoundAgain, window, t₂, ⟨hPick, rfl⟩, hVoice, rfl⟩, ht₂⟩

theorem Voiced.again (hTells : studio.Tells stock Ready) {clip : Option String} {duration : Value}
    {g g' : Generator} {voice : Option (Voice α)} (hs : Ready ps s) (ht : Ready qs t)
    (hClip : ∀ path, clip = some path → path ∈ ps ∧ path ∈ qs)
    (h : Voiced studio timing duration g s clip voice g' s') :
    Ready ps s' ∧ ∃ t', Voiced studio timing duration g t clip voice g' t' ∧ Ready qs t' := by
  cases clip with
  | none =>
    obtain ⟨rfl, rfl, rfl⟩ := h
    exact ⟨hs, t, ⟨rfl, rfl, rfl⟩, ht⟩
  | some path =>
    obtain ⟨v, rfl, hVoice⟩ := h
    obtain ⟨hp, hq⟩ := hClip path rfl
    obtain ⟨hReady, t', hAgain, ht'⟩ := voiceFor_again hTells hs ht hp hq hVoice
    exact ⟨hReady, t', ⟨v, rfl, hAgain⟩, ht'⟩

end Timeline

end Radioplay
