import Radioplay.Proofs.Script.Seeds
import Radioplay.Proofs.Timeline.Voices

/-! The seed that an episode is made with, from the text of its script on. It is the number on the
text's last seed line, unless that is zero: zero counts as no seed at all, and the episode is then
made with the default seed, like one whose text declares none. -/

namespace Radioplay.Timeline

variable {σ α : Type} [Quantity α] {studio : Studio σ α} {timing : Timing} {script : Script}
  {s s' : σ} {timeline : Timeline α} {g : Generator}

/-- A timeline is made with a seed: it reports it, a generator of that seed makes the same timeline,
and what is drawn for its voices is drawn in turn from that generator. -/
structure MadeWith (studio : Studio σ α) (timing : Timing) (script : Script) (s s' : σ)
    (timeline : Timeline α) (g : Generator) (seed : Int) : Prop where
  reported : timeline.seed = seed
  generated : (generate studio timing script (some (.ofSeed seed))).perform s =
    (.ok (timeline, g), s')
  drawn : ∀ (contents : Contents α) (I : σ → Prop), studio.Shows contents I → I s →
    DrawnInTurn contents timing.energySearchRange (.ofSeed seed) g (cuesOf studio timing script s)
      timeline.entries

theorem generate_none_eq (studio : Studio σ α) (timing : Timing) (script : Script) :
    generate studio timing script none =
      generate studio timing script (some (.ofSeed (seedOf script))) := rfl

theorem madeWith_seedOf
    (h : (generate studio timing script none).perform s = (.ok (timeline, g), s')) :
    MadeWith studio timing script s s' timeline g (seedOf script) where
  reported := by
    obtain ⟨_, _, _, _, -, -, -, hSeed, -, -⟩ := generate_ok h
    exact hSeed
  generated := by rwa [generate_none_eq] at h
  drawn _ _ hShows hs := generate_drawn hShows hs h

theorem seedOf_of_ne_zero {n : Int} (hSeed : script.seed = some n) (hn : n ≠ 0) :
    seedOf script = n := by
  rw [seedOf, hSeed]
  exact if_neg hn

theorem seedOf_of_zero (hSeed : script.seed = some 0) : seedOf script = defaultSeed := by
  rw [seedOf, hSeed]
  exact if_pos rfl

theorem seedOf_of_none (hSeed : script.seed = none) : seedOf script = defaultSeed := by
  rw [seedOf, hSeed]

/-- A declared seed is the one that an episode is made with just if it is not zero. -/
theorem generate_declaredSeed {text : List Char} (hParse : Script.parse text = .ok script)
    (h : (generate studio timing script none).perform s = (.ok (timeline, g), s')) :
    (∀ n, Script.declaredSeed? text = some n →
      (MadeWith studio timing script s s' timeline g n ↔ n ≠ 0)) ∧
    (Script.declaredSeed? text = some 0 ∨ Script.declaredSeed? text = none →
      MadeWith studio timing script s s' timeline g defaultSeed) := by
  have hMade := madeWith_seedOf h
  rw [← Script.parse_seed hParse]
  constructor
  · intro n hSeed
    constructor
    · rintro hn rfl
      have hReported := hMade.reported.symm.trans hn.reported
      rw [seedOf_of_zero hSeed] at hReported
      exact absurd hReported (by decide)
    · intro hn
      rwa [seedOf_of_ne_zero hSeed hn] at hMade
  · rintro (hSeed | hSeed)
    · rwa [seedOf_of_zero hSeed] at hMade
    · rwa [seedOf_of_none hSeed] at hMade

def zeroText : List Char := "seed: 8\nmario: Hi\nseed: 000\nmario: Bye".toList

def zeroScript : Script :=
  ⟨some 0,
    [.text (some "mario") (some "neutral") "Hi", .text (some "mario") (some "neutral") "Bye"]⟩

set_option maxRecDepth 20000 in
/-- The last seed line declares zero, and the default seed is used. -/
theorem zero_declaredSeed :
    Script.parse zeroText = .ok zeroScript ∧ Script.declaredSeed? zeroText = some 0 ∧
      ∃ timeline g,
        (generate soloist { energySearchRange := .int 1 } zeroScript none).perform () =
          (.ok (timeline, g), ()) ∧
        ¬MadeWith soloist { energySearchRange := .int 1 } zeroScript () () timeline g 0 ∧
        MadeWith soloist { energySearchRange := .int 1 } zeroScript () () timeline g 12345 := by
  have hParse : Script.parse zeroText = .ok zeroScript := by with_unfolding_all rfl
  have hDeclared : Script.declaredSeed? zeroText = some 0 := by with_unfolding_all rfl
  obtain ⟨⟨timeline, g⟩, _, hRun⟩ := Act.exists_of_isOk (show ((generate soloist
    { energySearchRange := .int 1 } zeroScript none).perform ()).1.isOk = true by
      decide +kernel)
  obtain ⟨hHonoured, hDefault⟩ := generate_declaredSeed hParse hRun
  exact ⟨hParse, hDeclared, timeline, g, hRun, fun hZero => (hHonoured 0 hDeclared).mp hZero rfl,
    hDefault (.inl hDeclared)⟩

end Radioplay.Timeline
