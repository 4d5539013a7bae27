import Radioplay.Proofs.Command.Making
import Radioplay.Proofs.Command.Refusal

/-! Timeline runs that end with a status: they have come to their end, or they have failed with
status 1 and with an error line as the last that they have reported. -/

namespace Radioplay.Command

open Preview

namespace Run

variable {α β : Type} {a : Run α} {f : α → Run β}

/-- The text of logged lines. -/
def logText (lines : List String) : String := String.join (lines.map (· ++ "\n"))

/-- Does a text hold lines of a log and, after them, an error? -/
def Reports (errors : String) : Prop :=
  ∃ lines problem, errors = logText lines ++ ("Error: " ++ problem) ++ "\n"

/-- Does a run that ends with a status fail with status 1, and report that at the end? -/
def FailsAloud (a : Run α) : Prop :=
  ∀ s status s', a.perform s = (.error (.exit status), s') →
    status = 1 ∧ ∃ report, s'.errors = s.errors ++ report ∧ Reports report

/-- Does a run that comes to its end report nothing? -/
def IsQuiet (a : Run α) : Prop := ∀ s x s', a.perform s = (.ok x, s') → s'.errors = s.errors

theorem NeverExits.failsAloud (h : NeverExits a) : FailsAloud a :=
  fun s status _ hExit => absurd (congrArg Prod.fst hExit) (h s status)

theorem failsAloud_failWith (line : String) : FailsAloud (failWith line : Run α) := by
  rintro s status s' ⟨⟩
  exact ⟨rfl, "Error: " ++ line ++ "\n", String.append_assoc, [], line, rfl⟩

/-- What ends a run with a status is in its first part or in the rest. -/
theorem perform_bind_eq_exit {s s'' : Session} {status : ℕ}
    (h : (a >>= f).perform s = (.error (.exit status), s'')) :
    a.perform s = (.error (.exit status), s'') ∨
      ∃ x s', a.perform s = (.ok x, s') ∧ (f x).perform s' = (.error (.exit status), s'') := by
  rw [perform_bind] at h
  rcases hRun : a.perform s with ⟨e | x, s'⟩
  · rw [hRun] at h
    obtain ⟨hEnding, rfl⟩ := Prod.mk.inj h
    exact .inl (by rw [Except.error.inj hEnding])
  · rw [hRun] at h
    exact .inr ⟨x, s', rfl, h⟩

theorem FailsAloud.bind (ha : FailsAloud a) (hQuiet : IsQuiet a) (hf : ∀ x, FailsAloud (f x)) :
    FailsAloud (a >>= f) := by
  intro s status s'' hExit
  rcases perform_bind_eq_exit hExit with hFirst | ⟨x, s', hFirst, hRest⟩
  · exact ha s status s'' hFirst
  · have hReports := hf x s' status s'' hRest
    rwa [hQuiet s x s' hFirst] at hReports

theorem FailsAloud.bind_neverExits (ha : FailsAloud a) (hf : ∀ x, NeverExits (f x)) :
    FailsAloud (a >>= f) := by
  intro s status s'' hExit
  rcases perform_bind_eq_exit hExit with hFirst | ⟨x, s', -, hRest⟩
  · exact ha s status s'' hFirst
  · exact absurd (congrArg Prod.fst hRest) (hf x s' status)

theorem neverExits_raised (fault : Fault) : NeverExits (stop (.raised fault) : Run α) :=
  fun _ _ h => nomatch h

theorem neverExits_files : NeverExits files := fun _ _ h => nomatch h

end Run

open Run

variable {world : World} {verbose : Bool} {e : Episode} {s s' : Session}

theorem isQuiet_ofExcept {α : Type} (x : Except Fault α) : IsQuiet (ofExcept x) := by
  intro s y s' h
  rw [(perform_ofExcept_eq_ok.mp h).2]

theorem isQuiet_readScript (path : String) : IsQuiet (readScript path) := by
  intro s text s' h
  rw [(perform_readScript_eq_ok.mp h).2]

theorem isQuiet_readSettings (files : FileTree) (config : Option String) :
    IsQuiet (readSettings files config) := by
  intro s timing s' h
  rw [(perform_readSettings_eq_ok.mp h).2]

theorem isQuiet_folder (path : Option String) : IsQuiet (Run.folder path) := by
  intro s found s' h
  rw [(perform_folder_eq_ok.mp h).2]

theorem isQuiet_files : IsQuiet files := by
  rintro s found s' ⟨⟩
  rfl

theorem failsAloud_readScript (path : String) : FailsAloud (readScript path) := by
  refine neverExits_files.failsAloud.bind isQuiet_files fun files => ?_
  split
  · exact failsAloud_failWith _
  · exact (neverExits_ofExcept _).failsAloud

theorem failsAloud_readSettings (files : FileTree) (config : Option String) :
    FailsAloud (readSettings files config) := by
  unfold readSettings
  split
  · exact (neverExits_pure _).failsAloud
  · split
    · exact failsAloud_failWith _
    · exact (neverExits_raised _).failsAloud

theorem failsAloud_handOver (verbose : Bool) (script : Script)
    (made : Except Fault (Timeline Number × Generator) × Shelf Number) :
    FailsAloud (handOver verbose script made) := by
  intro s status s' hExit
  rw [handOver, Run.perform_bind, perform_logNotes] at hExit
  simp only at hExit
  split at hExit
  · cases hExit
  · rename_i fault _
    split at hExit
    · cases hExit
      refine ⟨rfl, logText (made.2.notes.filterMap (noteLine? verbose)) ++
        ("Error: " ++ fault.message) ++ "\n", ?_, _, _, rfl⟩
      simp only [Session.noting, logText, String.append_assoc]
    · cases hExit

theorem failsAloud_buildTimeline [Sound.Kit] (world : World) (verbose : Bool) (e : Episode) :
    FailsAloud (buildTimeline world verbose e) := by
  rw [buildTimeline_eq]
  refine (failsAloud_readScript e.file).bind (isQuiet_readScript _) fun text => ?_
  refine (neverExits_ofExcept _).failsAloud.bind (isQuiet_ofExcept _) fun script => ?_
  split
  · exact failsAloud_failWith _
  refine neverExits_files.failsAloud.bind isQuiet_files fun files => ?_
  refine (failsAloud_readSettings files e.config).bind (isQuiet_readSettings _ _) fun timing => ?_
  refine (neverExits_folder e.assets).failsAloud.bind (isQuiet_folder _) fun assets => ?_
  refine (neverExits_ofExcept _).failsAloud.bind (isQuiet_ofExcept _) fun manifest => ?_
  exact failsAloud_handOver verbose script _

theorem failsAloud_runTimeline [Sound.Kit] (world : World) (verbose : Bool) (e : Episode) :
    FailsAloud (runTimeline world verbose e) := by
  refine (failsAloud_buildTimeline world verbose e).bind_neverExits fun made => ?_
  refine (neverExits_writeEpisode e _ _).bind fun written => ?_
  exact (neverExits_printSummary _ _).bind fun _ => neverExits_print _

theorem stepsOf_timeline [Sound.Kit] {words : List String}
    (hRequest : requestOfLine words = .ok (.timeline e, verbose)) :
    stepsOf world words = runTimeline world verbose e := by
  rw [stepsOf, hRequest]
  rfl

/-- A timeline run ends with status 0 exactly if it comes to its end. -/
theorem run_timeline_eq_exit_iff [Sound.Kit] {words : List String}
    (hRequest : requestOfLine words = .ok (.timeline e, verbose)) :
    run world words = (.exit 0, s) ↔
      (runTimeline world verbose e).perform (.before world.files) = (.ok (), s) := by
  rw [run_eq, stepsOf_timeline hRequest]
  rcases hRun : (runTimeline world verbose e).perform (.before world.files) with ⟨ending | x, s'⟩
  · constructor
    · rintro ⟨⟩
      exact absurd (failsAloud_runTimeline world verbose e _ _ _ hRun).1 (by decide)
    · rintro ⟨⟩
  · simp

/-! ### Coming to the end -/

theorem perform_printSummary_eq_ok {slug : String} {t : Timeline Number}
    (h : (printSummary slug t).perform s = (.ok (), s')) :
    (∃ told, lengthTold t = .ok told) ∧ s'.desk = s.desk := by
  obtain ⟨output, hOutcome⟩ := perform_printSummary slug t s
  rw [h] at hOutcome
  cases hTold : lengthTold t with
  | error fault => simp [hTold] at hOutcome
  | ok told =>
    obtain ⟨-, rfl⟩ := Prod.mk.inj hOutcome
    exact ⟨⟨told, rfl⟩, rfl⟩

/-- A timeline run that has come to its end has made a timeline, written it and told of it. -/
theorem runTimeline_ok [Sound.Kit] (h : (runTimeline world verbose e).perform s = (.ok (), s')) :
    ∃ (m : Making) (output : String) (made scripted timed : FileTree),
      m.IsOf s.desk.files world.now e ∧ e.output = some output ∧
      Writes (e.folder output) m.script m.timeline s.desk.files made scripted timed ∧
      (∃ told, lengthTold m.timeline = .ok told) ∧ s'.desk = { s.desk with files := timed } := by
  obtain ⟨_, _, hBuild, hRest⟩ := Run.perform_bind_eq_ok.mp h
  obtain ⟨m, hMade, rfl, rfl⟩ := perform_buildTimeline_eq_ok.mp hBuild
  obtain ⟨_, _, hWritten, hRest⟩ := Run.perform_bind_eq_ok.mp hRest
  obtain ⟨output, made, scripted, timed, hOutput, hWrites, rfl, rfl⟩ :=
    perform_writeEpisode_eq_ok.mp hWritten
  obtain ⟨_, s₁, hSummary, hEnd⟩ := Run.perform_bind_eq_ok.mp hRest
  obtain ⟨hTold, hDesk⟩ := perform_printSummary_eq_ok hSummary
  obtain ⟨-, rfl⟩ := Prod.mk.inj hEnd
  exact ⟨m, output, made, scripted, timed, hMade, hOutput, hWrites, hTold, hDesk⟩

/-- A timeline that can be made, written and told of is. -/
theorem runTimeline_of [Sound.Kit] {m : Making} {output : String} {made scripted timed : FileTree}
    (hMade : m.IsOf s.desk.files world.now e) (hOutput : e.output = some output)
    (hWrites : Writes (e.folder output) m.script m.timeline s.desk.files made scripted timed)
    {told : ℤ × ℤ} (hTold : lengthTold m.timeline = .ok told) :
    ∃ s', (runTimeline world verbose e).perform s = (.ok (), s') ∧
      s'.desk = { s.desk with files := timed } := by
  obtain ⟨output', hSummary⟩ := perform_printSummary (Slug.ofPath e.file) m.timeline
    ((s.noting verbose m.shelf.notes).withFiles timed)
  rw [hTold] at hSummary
  refine ⟨_, Run.perform_bind_eq_ok.mpr ⟨_, _, perform_buildTimeline_eq_ok.mpr ⟨m, hMade, rfl, rfl⟩,
    Run.perform_bind_eq_ok.mpr ⟨_, _, perform_writeEpisode_eq_ok.mpr
      ⟨output, made, scripted, timed, hOutput, hWrites, rfl, rfl⟩,
      Run.perform_bind_eq_ok.mpr ⟨_, _, hSummary, rfl⟩⟩⟩, rfl⟩

end Radioplay.Command
