import Mathlib.Data.Rat.Defs
import Radioplay.Proofs.Library.Steps
import Radioplay.Proofs.Timeline.Calls
import Radioplay.Sound.Plain

/-! What timelines made from a library find out. Whatever the library held before, once it has
loaded the clips of a script it does not fail to tell of them for want of a clip. -/

namespace Radioplay

namespace Library

variable {α : Type} [Quantity α] {files : FileTree} {path : String} {s : Shelf α}

/-- All of the paths have been loaded. -/
def HoldsAll (paths : List String) (s : Shelf α) : Prop :=
  ∀ path ∈ paths, (s.library.clips.get? path).isSome

/-- The length of a clip that has been loaded may be unknown, but not for want of the clip. -/
theorem isClipFault_duration [Sound.Kit] (hFrames : Sound.Kit.CountsFrames) {fault : Fault}
    (hHeld : (s.library.clips.get? path).isSome) (h : s.duration path = .error fault) :
    fault.isClipFault = false := by
  obtain ⟨raw, hGet⟩ := Option.isSome_iff_exists.mp hHeld
  simp only [Shelf.duration, Library.raw, hGet, ok_bind, hFrames.seconds_eq,
    Sound.Wave.Raw.seconds, Sound.Wave.Raw.frames] at h
  split at h
  · cases h
  · split at h
    · cases h
      rfl
    · cases h

end Library

namespace Timeline

variable {α : Type} [Quantity α]

/-- Each line of dialogue is asked for once, in order; the clips found are loaded once, each in the
place where it was first found; and a timeline plays just these clips. No clip that a library has
loaded is missed afterwards, if lengths are told by frames. -/
theorem generate_discovers (timing : Timing) (script : Script) (generator : Option Generator) :
    (∀ (σ : Type) (studio : Studio σ α) (s : σ), studio.AlwaysAnswers →
      ∃ answers paths loaded queries,
        Discovers studio timing script generator s answers paths loaded queries) ∧
    ∀ [Sound.Kit], Sound.Kit.CountsFrames → ∀ (files : FileTree)
      (resolve : Option String → String → Act (Shelf α) (Option String)) (s : Shelf α),
      (Library.studio files resolve).AlwaysAnswers →
      ∃ answers paths loaded queries,
        Discovers (Library.studio files resolve) timing script generator s answers paths loaded
          queries ∧
        ∀ q ∈ queries, ∀ fault, q.fault? = some fault → fault.isClipFault = false := by
  constructor
  · intro σ studio s hAnswers
    obtain ⟨answers, paths, loaded, queries, hDiscovers, -⟩ :=
      exists_discovers (P := fun _ => True) (J := fun _ _ => True) hAnswers
        (fun _ _ _ _ => trivial) (fun _ _ _ _ _ => ⟨trivial, trivial⟩)
        (fun _ _ _ _ _ => ⟨trivial, trivial⟩) script generator s
    exact ⟨answers, paths, loaded, queries, hDiscovers⟩
  · intro _ hFrames files resolve s hAnswers
    apply exists_discovers hAnswers (J := Library.HoldsAll)
    case hPreload =>
      intro paths s s' hRun path hPath
      obtain ⟨_, s₁, -, hLoaded⟩ := Act.perform_bind_eq_ok.mp hRun
      exact (Library.preload_holds hLoaded path).mpr (.inr hPath)
    case hDuration =>
      intro paths s path hHolds hPath
      refine ⟨hHolds, fun fault hFault => ?_⟩
      have hTold : (((Library.studio files resolve).duration path).perform s).1 =
          s.duration path := rfl
      rw [hTold] at hFault
      cases hDuration : (s.duration path : Except Fault α) with
      | ok x =>
        rw [hDuration] at hFault
        cases hFault
      | error fault' =>
        rw [hDuration] at hFault
        cases hFault
        exact Library.isClipFault_duration hFrames (hHolds path hPath) hDuration
    case hPoints =>
      intro paths s path hHolds hPath
      exact ⟨hHolds, fun fault hFault => by cases hFault⟩

/-- Who is heard from which clip: Mario when he is happy, Toad when he is neutral. Luigi's clip has
no name, and Peach has none. -/
def band : Studio Unit ℚ where
  resolve character state := return match character, state with
    | some "mario", "happy" => some "m.wav"
    | some "toad", "neutral" => some "t.wav"
    | some "luigi", _ => some ""
    | _, _ => none
  preload _ := return
  duration _ := return 5
  points _ := return []

def song : Script :=
  ⟨none, [.text (some "toad") (some "") "One!", .text (some "luigi") none "Two!", .shot "wide",
    .text (some "mario") (some "happy") "Three!", .text (some "toad") none "Four!",
    .text (some "peach") none "Five!"]⟩

theorem song_preloaded :
    ((generate band.recording {} song none).perform ((), [])).2.2.filterMap Call.preloaded? =
      [["t.wav", "m.wav"]] := by
  decide +kernel

/-- A library that has heard one clip, of half a second. -/
def heard : Shelf ℚ := ⟨{ clips := [("m.wav", ⟨1, 10, 1, List.replicate 5 0⟩)] }, .empty, []⟩

def everyone : Option String → String → Act (Shelf ℚ) (Option String) :=
  fun _ _ => return some "m.wav"

theorem heard_made :
    ((generate (Library.studio .empty everyone) {} song none).perform heard).1.isOk := by
  decide +kernel

/-- Toad, whose state is left empty or out, and Mario are heard, in this order; and the clip that
the library has heard is enough for everyone, though its file is not there. -/
theorem song_discovers :
    (band.AlwaysAnswers ∧ ∃ answers paths loaded queries,
      Discovers band {} song none () answers paths loaded queries ∧ paths = ["t.wav", "m.wav"]) ∧
    ((Library.studio .empty everyone).AlwaysAnswers ∧ ∃ answers paths loaded queries,
      Discovers (Library.studio .empty everyone) {} song none heard answers paths loaded queries ∧
        loaded = .ok () ∧
        ∀ q ∈ queries, ∀ fault, q.fault? = some fault → fault.isClipFault = false) := by
  have hBand : band.AlwaysAnswers := fun _ _ _ => rfl
  have hEveryone : (Library.studio .empty everyone).AlwaysAnswers := fun _ _ _ => rfl
  obtain ⟨answers, paths, loaded, queries, hDiscovers⟩ :=
    (generate_discovers {} song none).1 Unit band () hBand
  have hPaths := hDiscovers.preloaded
  rw [song_preloaded] at hPaths
  obtain ⟨answers', paths', loaded', queries', hDiscovers', hClean⟩ :=
    (generate_discovers {} song none).2 Sound.plainKit_countsFrames .empty everyone heard hEveryone
  obtain ⟨⟨timeline, g⟩, s', hMade⟩ := Act.exists_of_isOk heard_made
  have hLoaded := (hDiscovers'.of_made timeline g (congrArg Prod.fst hMade)).1
  exact ⟨⟨hBand, answers, paths, loaded, queries, hDiscovers, (List.singleton_inj.mp hPaths).symm⟩,
    hEveryone, answers', paths', loaded', queries', hDiscovers', hLoaded, hClean⟩

end Timeline

end Radioplay
