import Radioplay.Proofs.Artifact.Writing
import Radioplay.Proofs.Command.Build

/-! What it takes for an episode to be built and written: each stage has come to its end, and what
they have made is what the next is made of. -/

namespace Radioplay.Command

open Preview

/-- What a timeline is made of on the way, and what comes of it. -/
structure Making where
  text : List Char
  script : Script
  timing : Timing
  assets : String
  manifest : Value
  timeline : Timeline Number
  generator : Generator
  /-- The clips that have been loaded, and what has been noted. -/
  shelf : Shelf Number

/-- Is this how a timeline is made for an episode of what is in the files? -/
structure Making.IsOf [Sound.Kit] (m : Making) (files : FileTree) (now : String) (e : Episode) :
    Prop where
  text_eq : (files.read e.file >>= Text.ofScriptFile) = .ok m.text
  script_eq : Script.parse m.text = .ok m.script
  events_ne : m.script.events.isEmpty = false
  timing_eq : Artifact.loadTiming files e.config = .ok m.timing
  assets_eq : e.assets = some m.assets
  manifest_eq : Manifest.load files now m.assets = .ok m.manifest
  timed_eq : timed files m.manifest m.assets m.timing m.script =
    (.ok (m.timeline, m.generator), m.shelf)

/-- The session after notes have been logged. -/
def Session.noting (s : Session) (verbose : Bool) (notes : List Note) : Session :=
  { s with
    errors := s.errors ++ String.join ((notes.filterMap (noteLine? verbose)).map (· ++ "\n")) }

variable {s s' : Session} {world : World} {verbose : Bool} {e : Episode}

theorem perform_readScript_eq_ok {path : String} {text : List Char} :
    (readScript path).perform s = (.ok text, s') ↔
      (s.desk.files.read path >>= Text.ofScriptFile) = .ok text ∧ s = s' := by
  rw [readScript, Run.perform_bind, Run.perform_files]
  simp only
  split
  · rename_i hMissing
    have hNoRead : ¬ (s.desk.files.read path >>= Text.ofScriptFile) = .ok text := by
      rintro hRead
      obtain ⟨bytes, hBytes, -⟩ := bind_eq_ok.mp hRead
      simp [FileTree.exists?_of_read hBytes] at hMissing
    simp [hNoRead]
  · exact Run.perform_ofExcept_eq_ok

theorem perform_readSettings_eq_ok {files : FileTree} {config : Option String} {timing : Timing} :
    (readSettings files config).perform s = (.ok timing, s') ↔
      Artifact.loadTiming files config = .ok timing ∧ s = s' := by
  unfold readSettings
  cases Artifact.loadTiming files config with
  | ok found => simp
  | error fault =>
    simp only
    split <;> simp

theorem perform_folder_eq_ok {path : Option String} {found : String} :
    (Run.folder path).perform s = (.ok found, s') ↔ path = some found ∧ s = s' := by
  cases path <;> simp

@[simp] theorem perform_logNotes (verbose : Bool) (notes : List Note) (s : Session) :
    (logNotes verbose notes).perform s = (.ok (), s.noting verbose notes) := rfl

theorem perform_handOver_eq_ok {script : Script} {x : Script × Timeline Number × Library}
    {made : Except Fault (Timeline Number × Generator) × Shelf Number} :
    (handOver verbose script made).perform s = (.ok x, s') ↔
      ∃ timeline generator, made.1 = .ok (timeline, generator) ∧
        x = (script, timeline, made.2.library) ∧ s' = s.noting verbose made.2.notes := by
  rw [handOver, Run.perform_bind, perform_logNotes]
  rcases made with ⟨fault | ⟨timeline, generator⟩, shelf⟩
  · simp only
    split <;> simp
  · simp [eq_comm]

/-- An episode is built exactly if there is a way to make its timeline. -/
theorem perform_buildTimeline_eq_ok [Sound.Kit] {x : Script × Timeline Number × Library} :
    (buildTimeline world verbose e).perform s = (.ok x, s') ↔
      ∃ m : Making, m.IsOf s.desk.files world.now e ∧
        x = (m.script, m.timeline, m.shelf.library) ∧ s' = s.noting verbose m.shelf.notes := by
  rw [buildTimeline_eq]
  simp only [Run.perform_bind_eq_ok, perform_readScript_eq_ok, Run.perform_ofExcept_eq_ok]
  constructor
  · rintro ⟨text, _, ⟨hText, rfl⟩, script, _, ⟨hScript, rfl⟩, hRest⟩
    split at hRest
    · simp at hRest
    rename_i hEvents
    simp only [Run.perform_bind_eq_ok, Run.perform_files, Prod.mk.injEq, Except.ok.injEq,
      perform_readSettings_eq_ok, perform_folder_eq_ok, Run.perform_ofExcept_eq_ok,
      perform_handOver_eq_ok] at hRest
    obtain ⟨_, _, ⟨rfl, rfl⟩, timing, _, ⟨hTiming, rfl⟩, assets, _, ⟨hAssets, rfl⟩, manifest, _,
      ⟨hManifest, rfl⟩, timeline, generator, hMade, rfl, rfl⟩ := hRest
    exact ⟨⟨text, script, timing, assets, manifest, timeline, generator, _⟩,
      ⟨hText, hScript, Bool.eq_false_iff.mpr hEvents, hTiming, hAssets, hManifest,
        Prod.ext hMade rfl⟩, rfl, rfl⟩
  · rintro ⟨m, h, rfl, rfl⟩
    refine ⟨m.text, s, ⟨h.text_eq, rfl⟩, m.script, s, ⟨h.script_eq, rfl⟩, ?_⟩
    rw [h.events_ne]
    simp only [Bool.false_eq_true, if_false, Run.perform_bind_eq_ok, Run.perform_files,
      perform_readSettings_eq_ok, perform_folder_eq_ok, Run.perform_ofExcept_eq_ok,
      perform_handOver_eq_ok]
    exact ⟨_, s, rfl, m.timing, s, ⟨h.timing_eq, rfl⟩, m.assets, s, ⟨h.assets_eq, rfl⟩, m.manifest,
      s, ⟨h.manifest_eq, rfl⟩, m.timeline, m.generator, by rw [h.timed_eq], by rw [h.timed_eq],
      by rw [h.timed_eq]⟩

/-! ### The episode's folder -/

/-- The folder of an episode, below an output folder. -/
def Episode.folder (e : Episode) (output : String) : String := Path.join output [Slug.ofPath e.file]

def scriptPath (folder : String) : String := Path.join folder ["script.json"]

def timelinePath (folder : String) : String := Path.join folder ["timeline.json"]

theorem isName_script : IsName "script.json" := by decide

theorem isName_timeline : IsName "timeline.json" := by decide

/-- The two artifacts of a folder have places of their own. -/
theorem place_ne_of_artifacts {t : FileTree} {folder : String} {p q : List String}
    (hScript : t.locate (scriptPath folder) = .ok p)
    (hTimeline : t.locate (timelinePath folder) = .ok q) : p ≠ q := by
  obtain ⟨-, f, -, rfl⟩ := (FileTree.locate_below isName_script).mp hScript
  obtain ⟨-, f', -, rfl⟩ := (FileTree.locate_below isName_timeline).mp hTimeline
  intro hEq
  have hName := congrArg List.getLast? hEq
  rw [List.getLast?_concat, List.getLast?_concat] at hName
  exact absurd hName (by decide)

/-- The session after a step on the files. -/
def Session.withFiles (s : Session) (files : FileTree) : Session :=
  { s with desk := { s.desk with files := files } }

theorem perform_onDesk_onFiles_eq_ok {α : Type} {a : Act FileTree α} {x : α} :
    (Run.onDesk (onFiles a)).perform s = (.ok x, s') ↔
      ∃ files, a.perform s.desk.files = (.ok x, files) ∧ s' = s.withFiles files := by
  rw [Run.perform_onDesk, onFiles, Act.perform_bind, Act.perform_get]
  simp only [Act.perform_bind, Act.perform_set, Act.perform_ofExcept, Run.perform_ofExcept_eq_ok]
  rcases a.perform s.desk.files with ⟨outcome, files⟩
  simp [Session.withFiles, eq_comm]

theorem perform_makeFolder_eq_ok {t t' : FileTree} {script output path : String} :
    (Artifact.makeFolder script output).perform t = (.ok path, t') ↔
      path = Path.join output [Slug.ofPath script] ∧
        (FileTree.ensureFolders path).perform t = (.ok (), t') := by
  rw [Artifact.makeFolder, Act.perform_bind_eq_ok]
  constructor
  · rintro ⟨_, made, hMade, hEnd⟩
    obtain ⟨rfl, rfl⟩ := Act.perform_pure_eq_ok.mp hEnd
    exact ⟨rfl, hMade⟩
  · rintro ⟨rfl, hMade⟩
    exact ⟨(), t', hMade, rfl⟩

/-- An episode is written in three steps on the files: its folder is made, then the script is
written there, then the timeline. -/
structure Writes (folder : String) (script : Script) (t : Timeline Number)
    (files made scripted timed : FileTree) : Prop where
  made_eq : (FileTree.ensureFolders folder).perform files = (.ok (), made)
  scripted_eq : (Artifact.writeValue (scriptPath folder) script.toValue).perform made =
    (.ok (), scripted)
  timed_eq : ∃ value, t.toValue = .ok value ∧
    (Artifact.writeValue (timelinePath folder) value).perform scripted = (.ok (), timed)

theorem perform_writeEpisode_eq_ok {script : Script} {t : Timeline Number} {x : String × String} :
    (writeEpisode e script t).perform s = (.ok x, s') ↔
      ∃ output made scripted timed, e.output = some output ∧
        Writes (e.folder output) script t s.desk.files made scripted timed ∧
        x = (e.folder output, timelinePath (e.folder output)) ∧ s' = s.withFiles timed := by
  simp only [writeEpisode, Run.perform_bind_eq_ok, perform_folder_eq_ok,
    perform_onDesk_onFiles_eq_ok, perform_makeFolder_eq_ok, Artifact.perform_write_eq_ok,
    Run.perform_ofExcept_eq_ok, Run.perform_pure_eq_ok]
  constructor
  · rintro ⟨output, _, ⟨hOutput, rfl⟩, folder, _, ⟨made, ⟨rfl, hMade⟩, rfl⟩, path, _,
      ⟨scripted, ⟨rfl, hScripted⟩, rfl⟩, value, _, ⟨hValue, rfl⟩, path', _,
      ⟨timed, ⟨rfl, hTimed⟩, rfl⟩, rfl, rfl⟩
    exact ⟨output, made, scripted, timed, hOutput, ⟨hMade, hScripted, value, hValue, hTimed⟩, rfl,
      rfl⟩
  · rintro ⟨output, made, scripted, timed, hOutput, hWrites, rfl, rfl⟩
    obtain ⟨value, hValue, hTimed⟩ := hWrites.timed_eq
    exact ⟨output, s, ⟨hOutput, rfl⟩, e.folder output, _, ⟨made, ⟨rfl, hWrites.made_eq⟩, rfl⟩,
      scriptPath (e.folder output), _, ⟨scripted, ⟨rfl, hWrites.scripted_eq⟩, rfl⟩, value, _,
      ⟨hValue, rfl⟩, timelinePath (e.folder output), _, ⟨timed, ⟨rfl, hTimed⟩, rfl⟩, rfl, rfl⟩

/-! ### The summary -/

/-- The length of a timeline in minutes and seconds, as a summary tells it. -/
def lengthTold (t : Timeline Number) : Except Fault (Int × Int) := do
  let seconds ← totalSeconds t
  let x ← seconds.toFloat
  minutesAndSeconds x

/-- A summary is told exactly if its length can be, and nothing but the output changes. -/
theorem perform_printSummary (slug : String) (t : Timeline Number) (s : Session) :
    ∃ output, (printSummary slug t).perform s =
      ((match lengthTold t with
        | .ok _ => .ok ()
        | .error fault => .error (.raised fault)), { s with output := output }) := by
  unfold printSummary lengthTold
  cases totalSeconds t with
  | error fault => exact ⟨_, rfl⟩
  | ok seconds =>
    rw [ok_bind]
    simp only [Run.perform_bind, Run.perform_ofExcept_ok, Run.perform_print]
    cases seconds.toFloat with
    | error fault => exact ⟨_, rfl⟩
    | ok x =>
      rw [ok_bind, Run.perform_ofExcept_ok]
      simp only
      cases minutesAndSeconds x <;> exact ⟨_, rfl⟩

end Radioplay.Command
