import Radioplay.Proofs.Command.Build

/-! Runs that end in a reported failure. A run reports its failures before it writes anything: up to
the end of `buildTimeline` no step changes a file, and from the first write on no step ends the run
with a status. So a failure that is reported leaves every file as it was. -/

namespace Radioplay.Command

open Preview

namespace Run

variable {α β : Type} {a : Run α} {f : α → Run β}

/-- Does a run leave the desk as it is, however it ends? -/
def LeavesDesk (a : Run α) : Prop := ∀ s, (a.perform s).2.desk = s.desk

/-- Does a run end with a status in no session? -/
def NeverExits (a : Run α) : Prop := ∀ s status, (a.perform s).1 ≠ .error (.exit status)

/-- Has the desk been left as it was wherever a run ends with a status? -/
def ExitsUntouched (a : Run α) : Prop :=
  ∀ s status, (a.perform s).1 = .error (.exit status) → (a.perform s).2.desk = s.desk

theorem LeavesDesk.exitsUntouched (h : LeavesDesk a) : ExitsUntouched a := fun s _ _ => h s

theorem NeverExits.exitsUntouched (h : NeverExits a) : ExitsUntouched a :=
  fun s status hExit => absurd hExit (h s status)

/-! ### Runs one after another -/

theorem LeavesDesk.bind (ha : LeavesDesk a) (hf : ∀ x, LeavesDesk (f x)) :
    LeavesDesk (a >>= f) := by
  intro s
  rw [perform_bind]
  have hFirst := ha s
  rcases hRun : a.perform s with ⟨e | x, s'⟩
  · rwa [hRun] at hFirst
  · rw [hRun] at hFirst
    exact (hf x s').trans hFirst

theorem NeverExits.bind (ha : NeverExits a) (hf : ∀ x, NeverExits (f x)) :
    NeverExits (a >>= f) := by
  intro s status
  rw [perform_bind]
  have hFirst := ha s status
  rcases hRun : a.perform s with ⟨e | x, s'⟩
  · rw [hRun] at hFirst
    exact fun h => hFirst (congrArg Except.error (Except.error.inj h))
  · exact hf x s' status

theorem LeavesDesk.bind_exitsUntouched (ha : LeavesDesk a) (hf : ∀ x, ExitsUntouched (f x)) :
    ExitsUntouched (a >>= f) := by
  intro s status hExit
  rw [perform_bind] at hExit ⊢
  have hFirst := ha s
  rcases hRun : a.perform s with ⟨e | x, s'⟩
  · rwa [hRun] at hFirst
  · rw [hRun] at hFirst hExit
    exact (hf x s' status hExit).trans hFirst

/-! ### Single steps -/

theorem leavesDesk_pure (x : α) : LeavesDesk (pure x : Run α) := fun _ => rfl

theorem leavesDesk_stop (e : Ending) : LeavesDesk (stop e : Run α) := fun _ => rfl

theorem leavesDesk_ofExcept (e : Except Fault α) : LeavesDesk (ofExcept e) := by
  intro s
  cases e <;> rfl

theorem leavesDesk_failWith (line : String) : LeavesDesk (failWith line : Run α) := fun _ => rfl

theorem leavesDesk_files : LeavesDesk files := fun _ => rfl

theorem leavesDesk_folder (path : Option String) : LeavesDesk (folder path) := by
  intro s
  cases path <;> rfl

theorem neverExits_pure (x : α) : NeverExits (pure x : Run α) := fun _ _ h => nomatch h

theorem neverExits_ofExcept (e : Except Fault α) : NeverExits (ofExcept e) := by
  intro s status
  cases e with
  | ok x => exact fun h => nomatch h
  | error fault => exact fun h => nomatch h

theorem neverExits_print (line : String) : NeverExits (print line) := fun _ _ h => nomatch h

theorem neverExits_folder (path : Option String) : NeverExits (folder path) := by
  intro s status
  cases path with
  | some p => exact fun h => nomatch h
  | none => exact fun h => nomatch h

theorem neverExits_onDesk (a : Act Desk α) : NeverExits (onDesk a) :=
  fun s => neverExits_ofExcept (a.perform s.desk).1 { s with desk := (a.perform s.desk).2 }

end Run

open Run

/-! ### The commands -/

theorem leavesDesk_logNotes (verbose : Bool) (notes : List Note) :
    LeavesDesk (logNotes verbose notes) := fun _ => rfl

theorem leavesDesk_readScript (path : String) : LeavesDesk (readScript path) := by
  refine leavesDesk_files.bind fun files => ?_
  split
  · exact leavesDesk_failWith _
  · exact leavesDesk_ofExcept _

theorem leavesDesk_readSettings (files : FileTree) (config : Option String) :
    LeavesDesk (readSettings files config) := by
  unfold readSettings
  split
  · exact leavesDesk_pure _
  · split
    · exact leavesDesk_failWith _
    · exact leavesDesk_stop _

theorem leavesDesk_handOver (verbose : Bool) (script : Script)
    (made : Except Fault (Timeline Number × Generator) × Shelf Number) :
    LeavesDesk (handOver verbose script made) := by
  refine (leavesDesk_logNotes verbose _).bind fun _ => ?_
  split
  · exact leavesDesk_pure _
  · split
    · exact leavesDesk_failWith _
    · exact leavesDesk_stop _

theorem leavesDesk_buildTimeline [Sound.Kit] (world : World) (verbose : Bool) (e : Episode) :
    LeavesDesk (buildTimeline world verbose e) := by
  rw [buildTimeline_eq]
  refine (leavesDesk_readScript e.file).bind fun text => ?_
  refine (leavesDesk_ofExcept _).bind fun script => ?_
  split
  · exact leavesDesk_failWith _
  refine leavesDesk_files.bind fun files => ?_
  refine (leavesDesk_readSettings files e.config).bind fun timing => ?_
  refine (leavesDesk_folder e.assets).bind fun assets => ?_
  refine (leavesDesk_ofExcept _).bind fun manifest => ?_
  exact leavesDesk_handOver verbose script _

theorem neverExits_printSummary (slug : String) (t : Timeline Number) :
    NeverExits (printSummary slug t) := by
  refine (neverExits_ofExcept _).bind fun seconds => ?_
  refine (neverExits_print _).bind fun _ => ?_
  refine (neverExits_print _).bind fun _ => ?_
  refine (neverExits_ofExcept _).bind fun x => ?_
  exact (neverExits_ofExcept _).bind fun _ => neverExits_print _

theorem neverExits_writeEpisode (e : Episode) (script : Script) (t : Timeline Number) :
    NeverExits (writeEpisode e script t) := by
  refine (neverExits_folder e.output).bind fun output => ?_
  refine (neverExits_onDesk _).bind fun folder => ?_
  refine (neverExits_onDesk _).bind fun _ => ?_
  refine (neverExits_ofExcept _).bind fun value => ?_
  exact (neverExits_onDesk _).bind fun path => neverExits_pure _

theorem exitsUntouched_runParse (file : String) : ExitsUntouched (runParse file) := by
  refine (leavesDesk_readScript file).bind_exitsUntouched fun text => ?_
  refine (leavesDesk_ofExcept _).bind_exitsUntouched fun script => ?_
  exact ((neverExits_ofExcept _).bind fun json => neverExits_print _).exitsUntouched

theorem exitsUntouched_runManifest (world : World) (assets : String) :
    ExitsUntouched (runManifest world assets) := by
  refine leavesDesk_files.bind_exitsUntouched fun files => ?_
  split
  · exact (leavesDesk_failWith _).exitsUntouched
  · exact ((neverExits_onDesk _).bind fun path => neverExits_print _).exitsUntouched

theorem exitsUntouched_runTimeline [Sound.Kit] (world : World) (verbose : Bool) (e : Episode) :
    ExitsUntouched (runTimeline world verbose e) := by
  refine (leavesDesk_buildTimeline world verbose e).bind_exitsUntouched fun made => ?_
  refine NeverExits.exitsUntouched ?_
  refine (neverExits_writeEpisode e _ _).bind fun written => ?_
  exact (neverExits_printSummary _ _).bind fun _ => neverExits_print _

theorem exitsUntouched_runRender [Sound.Kit] (world : World) (verbose : Bool) (e : Episode) :
    ExitsUntouched (runRender world verbose e) := by
  unfold runRender
  split
  · exact LeavesDesk.exitsUntouched fun _ => rfl
  refine (leavesDesk_buildTimeline world verbose e).bind_exitsUntouched fun made => ?_
  refine NeverExits.exitsUntouched ?_
  refine (neverExits_writeEpisode e _ _).bind fun written => ?_
  refine (neverExits_ofExcept _).bind fun mix => ?_
  refine (neverExits_onDesk _).bind fun path => ?_
  exact (neverExits_printSummary _ _).bind fun _ => neverExits_print _

theorem leavesDesk_runStop (s : Stop) : LeavesDesk (runStop s) := by
  intro session
  cases s <;> rfl

theorem exitsUntouched_stepsOf [Sound.Kit] (world : World) (words : List String) :
    ExitsUntouched (stepsOf world words) := by
  unfold stepsOf
  split
  · rename_i request verbose _
    cases request with
    | help => exact LeavesDesk.exitsUntouched fun _ => rfl
    | parse file => exact exitsUntouched_runParse file
    | manifest assets => exact exitsUntouched_runManifest world assets
    | timeline e => exact exitsUntouched_runTimeline world verbose e
    | render e => exact exitsUntouched_runRender world verbose e
  · exact (leavesDesk_runStop _).exitsUntouched

/-- Whatever a run is asked to do and whatever it finds, a failure that it reports leaves the files
as they were, and no mix has been given out. -/
theorem desk_of_reported_failure [Sound.Kit] (world : World) (words : List String) {status : Nat}
    (hExit : (run world words).1 = .exit status) (hStatus : status ≠ 0) :
    (run world words).2.desk = { files := world.files } := by
  have hSteps := perform_of_run_eq_exit (Prod.ext hExit rfl) hStatus
  have hDesk := exitsUntouched_stepsOf world words (.before world.files) status
    (congrArg Prod.fst hSteps)
  rw [hSteps] at hDesk
  exact hDesk

def promise : String :=
  "\x7b\"characters\": \x7b\"mario\": \x7b\"states\": " ++
    "\x7b\"neutral\": \x7b\"audio\": [\"a.mp3\"]\x7d\x7d\x7d\x7d\x7d"

/-- A script, and a manifest that promises a clip that is not there. -/
def muteStudio : FileTree :=
  ⟨[(["ep.fsl"], .file (Text.encode "mario: Hi.".toList)), (["assets"], .folder),
    (["assets", "manifest.json"], .file (Text.encode promise.toList))]⟩

def muteWorld : World :=
  { files := muteStudio, encoderFound := true, folder := "/home", now := "2024-05-01T12:00:00" }

/-- The clip is missed after all else has been found, and nothing has been written. -/
theorem desk_of_mute_render : (run muteWorld ["render", "ep.fsl"]).1 = .exit 1 ∧ 1 ≠ 0 ∧
    (run muteWorld ["render", "ep.fsl"]).2.desk = { files := muteStudio } := by
  have hExit : (run muteWorld ["render", "ep.fsl"]).1 = .exit 1 := by decide +kernel
  exact ⟨hExit, by decide, desk_of_reported_failure muteWorld _ hExit (by decide)⟩

end Radioplay.Command
