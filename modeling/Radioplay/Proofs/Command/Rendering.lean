import Radioplay.Proofs.Artifact.Contents
import Radioplay.Proofs.Artifact.RoundTrip
import Radioplay.Proofs.Command.Repeat
import Radioplay.Proofs.Preview.Tally
import Radioplay.Proofs.Timeline.Clock

/-! Render runs. One that comes to its end has written the timeline and a report beside it, and has
told of the timeline; the report and what has been told agree with what is written. -/

namespace Radioplay.Command

open Preview FileTree Run

variable {world : World} {verbose : Bool} {e : Episode} {s s' : Session}

/-! ### Coming to the end -/

theorem status_of_runRender [Sound.Kit] {status : ℕ}
    (h : (runRender world verbose e).perform s = (.error (.exit status), s')) : status = 1 := by
  unfold runRender at h
  split at h
  · cases h
    rfl
  · rcases perform_bind_eq_exit h with hBuild | ⟨made, s₁, -, hRest⟩
    · exact (failsAloud_buildTimeline world verbose e s status s' hBuild).1
    · -- From the first write on no step ends the run with a status.
      refine absurd (congrArg Prod.fst hRest)
        ((neverExits_writeEpisode e _ _).bind (fun written => ?_) s₁ status)
      refine (neverExits_ofExcept _).bind fun mix => ?_
      refine (neverExits_onDesk _).bind fun path => ?_
      exact (neverExits_printSummary _ _).bind fun _ => neverExits_print _

/-- A render run ends with status 0 exactly if it comes to its end. -/
theorem run_render_eq_exit_iff [Sound.Kit] {words : List String}
    (hRequest : requestOfLine words = .ok (.render e, verbose)) :
    run world words = (.exit 0, s) ↔
      (runRender world verbose e).perform (.before world.files) = (.ok (), s) := by
  have hSteps : stepsOf world words = runRender world verbose e := by
    rw [stepsOf, hRequest]
    rfl
  rw [run_eq, hSteps]
  rcases hRun : (runRender world verbose e).perform (.before world.files) with ⟨ending | x, s'⟩
  · constructor
    · rintro ⟨⟩
      exact absurd (status_of_runRender hRun) (by decide)
    · rintro ⟨⟩
  · simp

/-! ### What is written and told -/

def reportPath (folder : String) : String := Path.join folder ["output.json"]

theorem isName_report : IsName "output.json" := by decide

theorem perform_onDesk_eq_ok {α : Type} {a : Act Desk α} {x : α} :
    (onDesk a).perform s = (.ok x, s') ↔
      ∃ desk, a.perform s.desk = (.ok x, desk) ∧ s' = { s with desk := desk } := by
  rw [perform_onDesk, perform_ofExcept_eq_ok]
  rcases a.perform s.desk with ⟨outcome, desk⟩
  simp [eq_comm]

theorem perform_onFiles_eq_ok {α : Type} {a : Act FileTree α} {x : α} {d d' : Desk} :
    (onFiles a).perform d = (.ok x, d') ↔
      ∃ files, a.perform d.files = (.ok x, files) ∧ d' = { d with files := files } := by
  rw [onFiles, Act.perform_bind, Act.perform_get]
  simp only [Act.perform_bind, Act.perform_set, Act.perform_ofExcept]
  rcases a.perform d.files with ⟨outcome, files⟩
  simp [eq_comm]

/-- In a folder that is there a preview is published by writing its report. -/
theorem files_of_publish {mix : Sound.Clip} {folder slug now source path : String}
    {t : Timeline Number} {d d' : Desk}
    (h : (publish mix folder slug t now source).perform d = (.ok path, d'))
    (hFolder : d.files.isFolder folder = true) :
    ∃ told, report t now slug source = .ok told ∧
      (Artifact.writeValue (reportPath folder) told).perform d.files = (.ok (), d'.files) := by
  simp only [publish, Act.perform_bind_eq_ok, perform_onFiles_eq_ok, Act.perform_modify,
    Act.perform_ofExcept_eq_ok, Act.perform_pure_eq_ok, Prod.mk.injEq,
    ensureFolders_of_isFolder hFolder] at h
  obtain ⟨_, _, ⟨_, ⟨-, rfl⟩, rfl⟩, _, _, ⟨-, rfl⟩, told, _, ⟨hTold, rfl⟩, _, _,
    ⟨files, hWritten, rfl⟩, -, rfl⟩ := h
  exact ⟨told, hTold, hWritten⟩

theorem output_of_printSummary {slug : String} {t : Timeline Number}
    (h : (printSummary slug t).perform s = (.ok (), s')) :
    ∃ rest, s'.output = s.output ++ (Tally.ofTimeline t).summary slug ++ rest := by
  unfold printSummary at h
  obtain ⟨seconds, s₁, hSeconds, h⟩ := perform_bind_eq_ok.mp h
  obtain ⟨-, rfl⟩ := perform_ofExcept_eq_ok.mp hSeconds
  obtain ⟨_, s₂, hEpisode, h⟩ := perform_bind_eq_ok.mp h
  obtain ⟨-, rfl⟩ := Prod.mk.inj hEpisode
  obtain ⟨_, s₃, hEvents, h⟩ := perform_bind_eq_ok.mp h
  obtain ⟨-, rfl⟩ := Prod.mk.inj hEvents
  obtain ⟨x, s₄, hx, h⟩ := perform_bind_eq_ok.mp h
  obtain ⟨-, rfl⟩ := perform_ofExcept_eq_ok.mp hx
  obtain ⟨length, s₅, hLength, h⟩ := perform_bind_eq_ok.mp h
  obtain ⟨-, rfl⟩ := perform_ofExcept_eq_ok.mp hLength
  obtain ⟨-, rfl⟩ := Prod.mk.inj h
  have hLines (a b c d n : String) :
      a ++ b ++ n ++ c ++ n ++ d ++ n = a ++ (b ++ n ++ c ++ n) ++ (d ++ n) := by
    simp only [String.append_assoc]
  exact ⟨_, hLines _ _ _ _ _⟩

/-- What a render run has made, written and told when it has come to its end. -/
structure Renders [Sound.Kit] (world : World) (e : Episode) (m : Making) (output : String)
    (told : Value) (s s' : Session) : Prop where
  made : m.IsOf s.desk.files world.now e
  output_eq : e.output = some output
  told_eq : report m.timeline world.now (Slug.ofPath e.file)
    (Path.absolute world.folder e.file) = .ok told
  written : ∃ made scripted timed,
    Writes (e.folder output) m.script m.timeline s.desk.files made scripted timed ∧
    (Artifact.writeValue (reportPath (e.folder output)) told).perform timed =
      (.ok (), s'.desk.files)
  summary : ∃ rest, s'.output = s.output ++
    (Tally.ofTimeline m.timeline).summary (Slug.ofPath e.file) ++ rest

theorem runRender_ok [Sound.Kit] (h : (runRender world verbose e).perform s = (.ok (), s')) :
    ∃ m output told, Renders world e m output told s s' := by
  unfold runRender at h
  split at h
  · cases h
  obtain ⟨_, _, hBuild, h⟩ := perform_bind_eq_ok.mp h
  obtain ⟨m, hMade, rfl, rfl⟩ := perform_buildTimeline_eq_ok.mp hBuild
  obtain ⟨_, _, hWritten, h⟩ := perform_bind_eq_ok.mp h
  obtain ⟨output, made, scripted, timed, hOutput, hWrites, rfl, rfl⟩ :=
    perform_writeEpisode_eq_ok.mp hWritten
  obtain ⟨mix, _, hMix, h⟩ := perform_bind_eq_ok.mp h
  obtain ⟨-, rfl⟩ := perform_ofExcept_eq_ok.mp hMix
  obtain ⟨path, s₁, hPublish, h⟩ := perform_bind_eq_ok.mp h
  obtain ⟨desk, hDesk, rfl⟩ := perform_onDesk_eq_ok.mp hPublish
  obtain ⟨_, s₂, hSummary, hEnd⟩ := perform_bind_eq_ok.mp h
  rw [perform_print] at hEnd
  obtain ⟨-, rfl⟩ := Prod.mk.inj hEnd
  obtain ⟨told, hTold, hReport⟩ := files_of_publish hDesk hWrites.filed.isFolder_after
  obtain ⟨rest, hRest⟩ := output_of_printSummary hSummary
  refine ⟨m, output, told, hMade, hOutput, hTold, ⟨made, scripted, timed, hWrites, ?_⟩, ?_⟩
  · show (Artifact.writeValue _ told).perform timed = (.ok (), s₂.desk.files)
    rw [(perform_printSummary_eq_ok hSummary).2]
    exact hReport
  · have hDone (a b c n : String) : a ++ b ++ c ++ n = a ++ (b ++ c ++ n) := by
      simp only [String.append_assoc]
    exact ⟨_, (congrArg (· ++ ("Done: " ++ path) ++ "\n") hRest).trans (hDone _ _ _ _)⟩

/-! ### What agrees -/

/-- Does a file hold the whole text of a value? What that text stands for is read from it then. -/
def HoldsText (t : FileTree) (path : String) (v : Value) : Prop :=
  ∃ text, Json.print v = .ok text ∧ t.read path = .ok (Text.encode text) ∧
    Artifact.readValue t path = Json.parse text

theorem holdsText_of_read {t : FileTree} {path : String} {v : Value} {text : List Char}
    (hPrint : Json.print v = .ok text) (hRead : t.read path = .ok (Text.encode text)) :
    HoldsText t path v :=
  ⟨text, hPrint, hRead, Artifact.readValue_of_read hPrint hRead⟩

/-- The events of an episode that has been read have the fields of their kinds. -/
theorem Making.IsOf.wellFormed [Sound.Kit] {m : Making} {files : FileTree} {now : String}
    (h : m.IsOf files now e) : ∀ entry ∈ m.timeline.entries, entry.event.WellFormed := by
  intro entry hEntry
  have hTimed : (Timeline.generate _ m.timing m.script none).perform _ =
      (.ok (m.timeline, m.generator), m.shelf) := h.timed_eq
  refine Script.events_wellFormed h.script_eq entry.event ?_
  rw [← Timeline.generate_events hTimed]
  exact List.mem_map_of_mem hEntry

/-- The timeline is left in its file when the report is written beside it. -/
theorem Renders.files [Sound.Kit] {m : Making} {output : String} {told : Value}
    (h : Renders world e m output told s s') :
    ∃ value, m.timeline.toValue = .ok value ∧
      HoldsText s'.desk.files (timelinePath (e.folder output)) value ∧
      HoldsText s'.desk.files (reportPath (e.folder output)) told := by
  obtain ⟨made, scripted, timed, hWrites, hReport⟩ := h.written
  obtain ⟨value, text, hValue, hPrint, hRead⟩ := hWrites.filed.leaves.timeline_read
  obtain ⟨text', place, hPrint', hPuts⟩ := Artifact.putsFile_of_writeValue hReport
  refine ⟨value, hValue, holdsText_of_read hPrint ?_, holdsText_of_read hPrint' hPuts.read⟩
  exact hPuts.read_beside isName_report isName_timeline (by decide) hRead

/-- A render run that ends with status 0 has written a timeline and a report, and has told of them:
all three have the same tally. -/
theorem render_agrees [Sound.Kit] {words : List String}
    (hRequest : requestOfLine words = .ok (.render e, verbose))
    (hRun : run world words = (.exit 0, s)) :
    ∃ (m : Making) (output : String) (timeline told : Value) (tally : Tally),
      m.IsOf world.files world.now e ∧ e.output = some output ∧
      m.timeline.toValue = .ok timeline ∧
      HoldsText s.desk.files (timelinePath (e.folder output)) timeline ∧
      HoldsText s.desk.files (reportPath (e.folder output)) told ∧
      tally.IsOf timeline ∧ tally.IsToldBy told ∧
      ∃ rest, s.output = tally.summary (Slug.ofPath e.file) ++ rest := by
  obtain ⟨m, output, told, hRenders⟩ := runRender_ok ((run_render_eq_exit_iff hRequest).mp hRun)
  obtain ⟨value, hValue, hTimeline, hReport⟩ := hRenders.files
  have hWell := hRenders.made.wellFormed
  obtain ⟨rest, hOutput⟩ := hRenders.summary
  refine ⟨m, output, value, told, Tally.ofTimeline m.timeline, hRenders.made, hRenders.output_eq,
    hValue, hTimeline, hReport, Tally.ofTimeline_isOf hWell hValue,
    Tally.ofTimeline_isToldBy hWell hRenders.told_eq, rest, ?_⟩
  rw [hOutput]
  exact congrArg (· ++ rest) String.empty_append

/-! ### A run seen -/

/-- Two characters, of whom only one has a clip, and a pause between their lines. -/
def duetWorld : World where
  files := ⟨(["ep.fsl"], textFile "zoe: Hello!\nmario: [...] Hi.") ::
    (["cfg.json"], textFile "\x7b\"energyWindowMs\": 250\x7d") :: castNodes⟩
  encoderFound := true
  folder := "/home"
  now := "2024-05-01T12:00:00"

def duetWords : List String := ["render", "ep.fsl", "--config", "cfg.json"]

def duet : Episode := ⟨"ep.fsl", some "assets", some "cfg.json", some "output"⟩

def duetEnd : Ending × Session := run duetWorld duetWords

theorem duet_seen : requestOfLine duetWords = .ok (.render duet, false) ∧ duetEnd.1 = .exit 0 ∧
    duetEnd.2.output = "Episode: ep (seed 12345)\nEvents: 3 (2 lines, 1 caption-only)\n" ++
      "Duration: 0:02\nDone: output/ep/ep.mp3\n" := by decide +kernel

/-- A mix of a voice and a caption is rendered, and all that is told of it agrees. -/
theorem render_agrees_duet :
    requestOfLine duetWords = .ok (.render duet, false) ∧
    run duetWorld duetWords = (.exit 0, duetEnd.2) ∧
    ∃ (timeline told : Value) (tally : Tally),
      HoldsText duetEnd.2.desk.files (timelinePath (duet.folder "output")) timeline ∧
      HoldsText duetEnd.2.desk.files (reportPath (duet.folder "output")) told ∧
      tally.IsOf timeline ∧ tally.IsToldBy told ∧
      ∃ rest, "Episode: ep (seed 12345)\nEvents: 3 (2 lines, 1 caption-only)\n" ++
        "Duration: 0:02\nDone: output/ep/ep.mp3\n" =
          tally.summary (Slug.ofPath duet.file) ++ rest := by
  obtain ⟨hRequest, hExit, hSeen⟩ := duet_seen
  have hRun : run duetWorld duetWords = (.exit 0, duetEnd.2) := run_eq_of_exit hExit
  obtain ⟨m, output, timeline, told, tally, -, hOutput, -, hTimeline, hReport, hOf, hTold, rest,
    hSummary⟩ := render_agrees hRequest hRun
  obtain rfl : "output" = output := Option.some.inj hOutput
  exact ⟨hRequest, hRun, timeline, told, tally, hTimeline, hReport, hOf, hTold, rest,
    hSeen.symm.trans hSummary⟩

end Radioplay.Command
