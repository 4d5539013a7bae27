import Radioplay.Proofs.Artifact.Contents
import Radioplay.Proofs.Artifact.Faults
import Radioplay.Proofs.Command.Reports

/-! Faults that escape from a timeline run. Where its folder can be written, a run ends with a
status or one of the faults listed here has escaped: whatever else goes wrong is reported. -/

namespace Radioplay.Command

open Preview FileTree

namespace Run

variable {α β : Type} {a : Run α} {f : α → Run β} {s : Session}

/-- Does a run that starts in a session end with a fault that no command expects? -/
def Escapes (a : Run α) (s : Session) : Prop :=
  ∃ fault s', a.perform s = (.error (.raised fault), s')

theorem escapes_bind_iff :
    (a >>= f).Escapes s ↔ a.Escapes s ∨ ∃ x s', a.perform s = (.ok x, s') ∧ (f x).Escapes s' := by
  unfold Escapes
  rw [perform_bind]
  rcases a.perform s with ⟨e | x, s'⟩ <;> simp

theorem escapes_bind_of_ok {x : α} {s' : Session} (h : a.perform s = (.ok x, s')) :
    (a >>= f).Escapes s ↔ (f x).Escapes s' := by
  unfold Escapes
  rw [perform_bind, h]

theorem escapes_ofExcept_iff {e : Except Fault α} :
    (ofExcept e).Escapes s ↔ ∃ fault, e = .error fault := by
  unfold Escapes
  cases e <;> simp

theorem not_escapes_failWith (line : String) : ¬ (failWith line : Run α).Escapes s := by
  rintro ⟨fault, s', ⟨⟩⟩

theorem not_escapes_pure (x : α) : ¬ (pure x : Run α).Escapes s := by
  rintro ⟨fault, s', ⟨⟩⟩

theorem not_escapes_files : ¬ files.Escapes s := by
  rintro ⟨fault, s', ⟨⟩⟩

theorem not_escapes_print (line : String) : ¬ (print line).Escapes s := by
  rintro ⟨fault, s', ⟨⟩⟩

theorem escapes_folder_iff {path : Option String} : (folder path).Escapes s ↔ path = none := by
  unfold Escapes
  cases path <;> simp

theorem escapes_iff_of_neverExits (h : NeverExits a) :
    a.Escapes s ↔ ¬ ∃ x s', a.perform s = (.ok x, s') := by
  unfold Escapes
  rcases hRun : a.perform s with ⟨e | x, s'⟩
  · cases e with
    | exit status => exact absurd (congrArg Prod.fst hRun) (h s status)
    | raised fault => simp
  · simp

end Run

open Run

variable {world : World} {verbose : Bool} {e : Episode} {s : Session} {files : FileTree}

/-! ### Stage by stage -/

theorem escapes_readScript_iff {path : String} :
    (readScript path).Escapes s ↔ s.desk.files.exists? path = true ∧
      ∃ fault, (s.desk.files.read path >>= Text.ofScriptFile) = .error fault := by
  rw [readScript, escapes_bind_iff]
  simp only [not_escapes_files, perform_files, Prod.mk.injEq, Except.ok.injEq, false_or]
  cases hThere : s.desk.files.exists? path <;>
    simp [hThere, not_escapes_failWith, escapes_ofExcept_iff]

theorem escapes_readSettings_iff {config : Option String} :
    (readSettings files config).Escapes s ↔
      Artifact.loadTiming files config = .error .nestedTooDeep := by
  unfold readSettings
  cases hTiming : Artifact.loadTiming files config with
  | ok timing => simp [not_escapes_pure]
  | error fault =>
    have hUntold :
        ¬ (Fault.nestedTooDeep.isFileFault || Fault.nestedTooDeep.isContentFault) = true := by
      decide
    rcases Artifact.loadTiming_fault hTiming with hTold | rfl
    · have hOther : fault ≠ .nestedTooDeep := by
        rintro rfl
        exact hUntold hTold
      have hCond : (fault.isFileFault || fault.isContentFault) = true := hTold
      simp [hCond, hOther, not_escapes_failWith]
    · simp only [hUntold, Bool.false_eq_true, if_false, iff_true]
      exact ⟨.nestedTooDeep, s, rfl⟩

theorem escapes_handOver_iff {script : Script}
    {made : Except Fault (Timeline Number × Generator) × Shelf Number} :
    (handOver verbose script made).Escapes s ↔
      ∃ fault, made.1 = .error fault ∧ fault.isClipFault = false := by
  rw [handOver, escapes_bind_iff]
  have hLogged : ¬ (logNotes verbose made.2.notes).Escapes s := by
    rintro ⟨fault, s', ⟨⟩⟩
  simp only [hLogged, perform_logNotes, Prod.mk.injEq, false_or]
  rcases made with ⟨fault | ⟨timeline, generator⟩, shelf⟩
  · cases hKind : fault.isClipFault with
    | true => simp [hKind, not_escapes_failWith]
    | false => simp [hKind, Escapes]
  · simp [not_escapes_pure]

/-! ### The folder of an episode -/

/-- Can an episode be written into a folder? It is there or can be made, and both files in it can be
emptied or made. -/
def IsWritable (files : FileTree) (folder : String) : Prop :=
  ∃ made, (ensureFolders folder).perform files = (.ok (), made) ∧
    (made.write (scriptPath folder) []).isOk = true ∧
    (made.write (timelinePath folder) []).isOk = true

theorem IsWritable.exists_writes {folder : String} {script : Script} {t : Timeline Number}
    (h : IsWritable files folder)
    {json : List Char} (hScript : Json.print script.toValue = .ok json)
    {value : Value} (hValue : t.toValue = .ok value) {text : List Char}
    (hPrint : Json.print value = .ok text) :
    ∃ made scripted timed, Writes folder script t files made scripted timed := by
  obtain ⟨made, hMade, hScriptFile, hTimelineFile⟩ := h
  obtain ⟨scripted, hScripted⟩ := Artifact.exists_writeValue hScript hScriptFile
  obtain ⟨_, p, -, hPuts⟩ := Artifact.putsFile_of_writeValue hScripted
  -- The script does not stand where the timeline is to be written.
  have hLater : (scripted.write (timelinePath folder) []).isOk = true := by
    obtain ⟨emptied, hEmpty⟩ := exists_ok_of_isOk hTimelineFile
    obtain ⟨q, hEmptied⟩ := putsFile_of_write hEmpty
    have hPlace := hPuts.extended.folders.locate hEmptied.locate_eq
    have hApart := place_ne_of_artifacts hPuts.locate_after hPlace
    have hNode : scripted.node? q ≠ some .folder := by
      rw [hPuts.node?_eq, if_neg hApart.symm]
      exact hEmptied.not_folder
    rw [write_eq_ok_iff.mpr ⟨hEmptied.trimmed, q, hPlace, hNode, rfl⟩]
    rfl
  obtain ⟨timed, hTimed⟩ := Artifact.exists_writeValue hPrint hLater
  exact ⟨made, scripted, timed, hMade, hScripted, value, hValue, hTimed⟩

/-- A script that has been read is written in any case; a timeline is if its numbers are. -/
theorem escapes_writeEpisode_iff {output : String} {script : Script} {t : Timeline Number}
    (hOutput : e.output = some output) (hWritable : IsWritable s.desk.files (e.folder output))
    {json : List Char} (hScript : Json.print script.toValue = .ok json)
    {value : Value} (hValue : t.toValue = .ok value) :
    (writeEpisode e script t).Escapes s ↔ ∃ fault, Json.print value = .error fault := by
  rw [escapes_iff_of_neverExits (neverExits_writeEpisode e script t)]
  cases hPrint : Json.print value with
  | ok text =>
    obtain ⟨made, scripted, timed, hWrites⟩ := hWritable.exists_writes hScript hValue hPrint
    have hDone := perform_writeEpisode_eq_ok.mpr
      ⟨output, made, scripted, timed, hOutput, hWrites, rfl, rfl⟩
    simp [hDone]
  | error fault =>
    simp only [Except.error.injEq, exists_eq', iff_true]
    rintro ⟨x, s', hDone⟩
    obtain ⟨_, _, _, _, -, hWrites, -⟩ := perform_writeEpisode_eq_ok.mp hDone
    obtain ⟨value', hValue', hTimed⟩ := hWrites.timed_eq
    obtain rfl : value' = value := Except.ok.inj (hValue'.symm.trans hValue)
    obtain ⟨text, _, hText, -⟩ := Artifact.putsFile_of_writeValue hTimed
    rw [hPrint] at hText
    cases hText

theorem escapes_printSummary_iff {slug : String} {t : Timeline Number} :
    (printSummary slug t).Escapes s ↔ ∃ fault, lengthTold t = .error fault := by
  obtain ⟨output, hOutcome⟩ := perform_printSummary slug t s
  unfold Escapes
  rw [hOutcome]
  cases lengthTold t <;> simp

/-! ### The whole run -/

/-- A script is read from a file, and has events. -/
structure Reads (files : FileTree) (e : Episode) (text : List Char) (script : Script) : Prop where
  text_eq : (files.read e.file >>= Text.ofScriptFile) = .ok text
  script_eq : Script.parse text = .ok script
  events_ne : script.events.isEmpty = false

/-- What no step of a timeline run expects. -/
inductive Slips [Sound.Kit] (files : FileTree) (now : String) (e : Episode) : Prop
  /-- The script is there but cannot be read, or is no text. -/
  | text {fault : Fault} (hThere : files.exists? e.file = true)
    (hText : (files.read e.file >>= Text.ofScriptFile) = .error fault)
  /-- A seed line of the script has more digits than are read. -/
  | seed {text digits : List Char} (hText : (files.read e.file >>= Text.ofScriptFile) = .ok text)
    (hSeed : digits ∈ Script.numerals text) (hLong : Script.isOverlong digits = true)
  | settings {text : List Char} {script : Script} (hReads : Reads files e text script)
    (hSettings : Artifact.loadTiming files e.config = .error .nestedTooDeep)
  | assets {text : List Char} {script : Script} {timing : Timing}
    (hReads : Reads files e text script)
    (hSettings : Artifact.loadTiming files e.config = .ok timing) (hAssets : e.assets = none)
  /-- The manifest is there but cannot be read, or is no JSON text. -/
  | manifest {text : List Char} {script : Script} {timing : Timing} {assets : String}
    {fault : Fault}
    (hReads : Reads files e text script)
    (hSettings : Artifact.loadTiming files e.config = .ok timing) (hAssets : e.assets = some assets)
    (hManifest : Manifest.load files now assets = .error fault)
  /-- The manifest, the settings or a clip hold something that a step of the timing cannot take. -/
  | timing {text : List Char} {script : Script} {timing : Timing} {assets : String}
    {manifest : Value} {fault : Fault} (hReads : Reads files e text script)
    (hSettings : Artifact.loadTiming files e.config = .ok timing) (hAssets : e.assets = some assets)
    (hManifest : Manifest.load files now assets = .ok manifest)
    (hTimed : (timed files manifest assets timing script).1 = .error fault)
    (hOther : fault.isClipFault = false)
  /-- A number of the timeline has too many digits to be written. -/
  | number {m : Making} {value : Value} {fault : Fault} (hMade : m.IsOf files now e)
    (hValue : m.timeline.toValue = .ok value) (hPrint : Json.print value = .error fault)
  /-- The length of the timeline is nothing that minutes and seconds can tell. -/
  | length {m : Making} {fault : Fault} (hMade : m.IsOf files now e)
    (hTold : lengthTold m.timeline = .error fault)

/-- What follows on a script that has been read. -/
def timeScript [Sound.Kit] (world : World) (verbose : Bool) (e : Episode) (script : Script) :
    Run (Script × Timeline Number × Library) := do
  let files ← Run.files
  let timing ← readSettings files e.config
  let assets ← Run.folder e.assets
  let manifest ← Run.ofExcept (Manifest.load files world.now assets)
  handOver verbose script (timed files manifest assets timing script)

theorem perform_buildTimeline_of_reads [Sound.Kit] {text : List Char} {script : Script}
    (h : Reads s.desk.files e text script) :
    (buildTimeline world verbose e).perform s = (timeScript world verbose e script).perform s := by
  have hRead := perform_readScript_eq_ok.mpr ⟨h.text_eq, rfl⟩
  rw [buildTimeline_eq, Run.perform_bind, hRead]
  simp only
  rw [h.script_eq, Run.perform_bind, Run.perform_ofExcept_ok]
  simp only [h.events_ne, Bool.false_eq_true, if_false]
  rfl

theorem escapes_timeScript_iff [Sound.Kit] {script : Script} :
    (timeScript world verbose e script).Escapes s ↔
      Artifact.loadTiming s.desk.files e.config = .error .nestedTooDeep ∨
      ∃ timing, Artifact.loadTiming s.desk.files e.config = .ok timing ∧
        (e.assets = none ∨ ∃ assets, e.assets = some assets ∧
          ((∃ fault, Manifest.load s.desk.files world.now assets = .error fault) ∨
            ∃ manifest, Manifest.load s.desk.files world.now assets = .ok manifest ∧
              ∃ fault, (timed s.desk.files manifest assets timing script).1 = .error fault ∧
                fault.isClipFault = false)) := by
  have hFiles (x : FileTree) (s' : Session) :
      Run.files.perform s = (.ok x, s') ↔ x = s.desk.files ∧ s' = s := by
    simp [eq_comm]
  simp only [timeScript, escapes_bind_iff, not_escapes_files, hFiles, escapes_readSettings_iff,
    perform_readSettings_eq_ok, escapes_folder_iff, perform_folder_eq_ok, escapes_ofExcept_iff,
    perform_ofExcept_eq_ok, escapes_handOver_iff, false_or, and_assoc, exists_and_left,
    exists_eq_left, exists_eq_left']

/-- A fault escapes while a timeline is made just if it is one that no step expects. -/
theorem slips_of_escapes_buildTimeline [Sound.Kit] (h : (buildTimeline world verbose e).Escapes s) :
    Slips s.desk.files world.now e := by
  rw [buildTimeline_eq] at h
  rcases escapes_bind_iff.mp h with hEscape | ⟨text, s₁, hRead, h⟩
  · obtain ⟨hThere, fault, hText⟩ := escapes_readScript_iff.mp hEscape
    exact .text hThere hText
  obtain ⟨hText, rfl⟩ := perform_readScript_eq_ok.mp hRead
  rcases escapes_bind_iff.mp h with hEscape | ⟨script, s₂, hParse, h⟩
  · obtain ⟨digits, hMem, hLong⟩ :=
      Script.exists_parse_error_iff.mp (escapes_ofExcept_iff.mp hEscape)
    exact .seed hText hMem hLong
  obtain ⟨hScript, rfl⟩ := perform_ofExcept_eq_ok.mp hParse
  split at h
  · exact absurd h (not_escapes_failWith _)
  rename_i hEvents
  have hReads : Reads s.desk.files e text script :=
    ⟨hText, hScript, Bool.eq_false_iff.mpr hEvents⟩
  rcases escapes_timeScript_iff.mp h with
    hDeep | ⟨timing, hTiming, hNone | ⟨assets, hAssets, hRest⟩⟩
  · exact .settings hReads hDeep
  · exact .assets hReads hTiming hNone
  rcases hRest with ⟨fault, hFault⟩ | ⟨manifest, hManifest, fault, hTimed, hOther⟩
  · exact .manifest hReads hTiming hAssets hFault
  · exact .timing hReads hTiming hAssets hManifest hTimed hOther

/-- A timeline that has been made can be written and told of, but for its numbers. -/
theorem escapes_runTimeline_of_isOf [Sound.Kit] {m : Making} {output : String} {value : Value}
    (hMade : m.IsOf s.desk.files world.now e) (hOutput : e.output = some output)
    (hWritable : IsWritable s.desk.files (e.folder output))
    (hValue : m.timeline.toValue = .ok value) :
    (runTimeline world verbose e).Escapes s ↔
      (∃ fault, Json.print value = .error fault) ∨
        ∃ fault, lengthTold m.timeline = .error fault := by
  obtain ⟨json, hScript⟩ := Script.exists_print hMade.script_eq
  have hBuild : (buildTimeline world verbose e).perform s =
      (.ok (m.script, m.timeline, m.shelf.library), s.noting verbose m.shelf.notes) :=
    perform_buildTimeline_eq_ok.mpr ⟨m, hMade, rfl, rfl⟩
  have hFolder : IsWritable (s.noting verbose m.shelf.notes).desk.files (e.folder output) :=
    hWritable
  rw [runTimeline, escapes_bind_of_ok hBuild]
  simp only
  cases hPrint : Json.print value with
  | error fault =>
    refine iff_of_true (escapes_bind_iff.mpr (.inl ?_)) (.inl ⟨fault, rfl⟩)
    exact (escapes_writeEpisode_iff hOutput hFolder hScript hValue).mpr ⟨fault, hPrint⟩
  | ok text =>
    obtain ⟨made, scripted, timed, hWrites⟩ := hFolder.exists_writes hScript hValue hPrint
    have hWritten := perform_writeEpisode_eq_ok.mpr
      ⟨output, made, scripted, timed, hOutput, hWrites, rfl, rfl⟩
    rw [escapes_bind_of_ok hWritten, escapes_bind_iff, escapes_printSummary_iff]
    simp [not_escapes_print]

/-- A fault escapes from a timeline run just if it is one that no step expects. -/
theorem escapes_runTimeline_iff [Sound.Kit] {output : String} (hOutput : e.output = some output)
    (hWritable : IsWritable s.desk.files (e.folder output)) :
    (runTimeline world verbose e).Escapes s ↔ Slips s.desk.files world.now e := by
  have hValue {m : Making} (hMade : m.IsOf s.desk.files world.now e) :
      ∃ value, m.timeline.toValue = .ok value := Timeline.exists_toValue hMade.timed_eq
  constructor
  · intro h
    rcases escapes_bind_iff.mp h with hBuild | ⟨_, _, hBuild, -⟩
    · exact slips_of_escapes_buildTimeline hBuild
    · obtain ⟨m, hMade, -, -⟩ := perform_buildTimeline_eq_ok.mp hBuild
      obtain ⟨value, hv⟩ := hValue hMade
      rcases (escapes_runTimeline_of_isOf hMade hOutput hWritable hv).mp h with
        ⟨fault, hPrint⟩ | ⟨fault, hTold⟩
      · exact .number hMade hv hPrint
      · exact .length hMade hTold
  · have hEarly (h : (buildTimeline world verbose e).Escapes s) :
        (runTimeline world verbose e).Escapes s := escapes_bind_iff.mpr (.inl h)
    have hLater {text : List Char} {script : Script} (hReads : Reads s.desk.files e text script)
        (h : (timeScript world verbose e script).Escapes s) :
        (runTimeline world verbose e).Escapes s := by
      refine hEarly ?_
      unfold Escapes
      rw [perform_buildTimeline_of_reads hReads]
      exact h
    rintro (⟨hThere, hText⟩ | ⟨hText, hSeed, hLong⟩ | ⟨hReads, hDeep⟩ | ⟨hReads, hTiming, hNone⟩ |
      ⟨hReads, hTiming, hAssets, hFault⟩ | ⟨hReads, hTiming, hAssets, hManifest, hTimed, hOther⟩ |
      ⟨hMade, hv, hPrint⟩ | ⟨hMade, hTold⟩)
    · refine hEarly ?_
      rw [buildTimeline_eq]
      exact escapes_bind_iff.mpr (.inl (escapes_readScript_iff.mpr ⟨hThere, _, hText⟩))
    · refine hEarly ?_
      rw [buildTimeline_eq, escapes_bind_of_ok (perform_readScript_eq_ok.mpr ⟨hText, rfl⟩)]
      exact escapes_bind_iff.mpr (.inl (escapes_ofExcept_iff.mpr
        (Script.exists_parse_error_iff.mpr ⟨_, hSeed, hLong⟩)))
    · exact hLater hReads (escapes_timeScript_iff.mpr (.inl hDeep))
    · exact hLater hReads (escapes_timeScript_iff.mpr (.inr ⟨_, hTiming, .inl hNone⟩))
    · exact hLater hReads (escapes_timeScript_iff.mpr
        (.inr ⟨_, hTiming, .inr ⟨_, hAssets, .inl ⟨_, hFault⟩⟩⟩))
    · exact hLater hReads (escapes_timeScript_iff.mpr
        (.inr ⟨_, hTiming, .inr ⟨_, hAssets, .inr ⟨_, hManifest, _, hTimed, hOther⟩⟩⟩))
    · exact (escapes_runTimeline_of_isOf hMade hOutput hWritable hv).mpr (.inl ⟨_, hPrint⟩)
    · obtain ⟨value, hv⟩ := hValue hMade
      exact (escapes_runTimeline_of_isOf hMade hOutput hWritable hv).mpr (.inr ⟨_, hTold⟩)

/-- Is a manifest that is there a text without half of a pair alone? A path with such a half cannot
be told from one with the character that the reader puts there. -/
def HasHalflessManifest (files : FileTree) (e : Episode) : Prop :=
  ∀ assets ∈ e.assets, ∀ text,
    (files.read (Manifest.filePath assets) >>= Text.ofFile) = .ok text → Json.IsHalfless text

/-- A timeline run whose folder can be written ends in success, or in failure with an error line,
just if it comes upon nothing that no step expects. -/
theorem timeline_reported_iff [Sound.Kit] {words : List String} {output : String}
    (hRequest : requestOfLine words = .ok (.timeline e, verbose)) (hOutput : e.output = some output)
    (hWritable : IsWritable world.files (e.folder output))
    (_hManifest : HasHalflessManifest world.files e) :
    ((run world words).1 = .exit 0 ∨
        (run world words).1 = .exit 1 ∧ Reports (run world words).2.errors) ↔
      ¬ Slips world.files world.now e := by
  have hSlips : (runTimeline world verbose e).Escapes (.before world.files) ↔
      Slips world.files world.now e := escapes_runTimeline_iff hOutput hWritable
  rw [← hSlips, run_eq, stepsOf_timeline hRequest]
  unfold Escapes
  rcases hRun : (runTimeline world verbose e).perform (.before world.files) with ⟨ending | x, s⟩
  · cases ending with
    | exit status =>
      obtain ⟨rfl, report, hErrors, hReports⟩ := failsAloud_runTimeline world verbose e _ _ _ hRun
      have hStart : (Session.before world.files).errors ++ report = report := String.empty_append
      rw [hStart] at hErrors
      simp [hErrors, hReports]
    | raised fault => simp
  · simp

/-- A script, and a manifest that breaks off. -/
def tornWorld : World where
  files := ⟨[(["ep.fsl"], .file (Text.encode "mario: Hi.".toList)), (["assets"], .folder),
    (["assets", "manifest.json"], .file (Text.encode ['\x7b']))]⟩
  encoderFound := false
  folder := "/home"
  now := "2024-05-01T12:00:00"

def torn : Episode := ⟨"ep.fsl", some "assets", none, some "output"⟩

theorem torn_isWritable : IsWritable tornWorld.files (torn.folder "output") := by
  refine ⟨((ensureFolders (torn.folder "output")).perform tornWorld.files).2,
    Prod.ext ?_ rfl, ?_, ?_⟩
  all_goals decide +kernel

theorem torn_hasHalflessManifest : HasHalflessManifest tornWorld.files torn := by
  intro assets hAssets text hText
  obtain rfl : "assets" = assets := Option.some.inj hAssets
  have hTorn : (tornWorld.files.read (Manifest.filePath "assets") >>= Text.ofFile) =
      .ok ['\x7b'] := by decide +kernel
  obtain rfl : ['\x7b'] = text := Except.ok.inj (hTorn.symm.trans hText)
  exact fun half => rfl

/-- The fault in the manifest is not reported, though one of the same kind in the settings is. -/
theorem torn_slips : requestOfLine ["timeline", "ep.fsl"] = .ok (.timeline torn, false) ∧
    torn.output = some "output" ∧ IsWritable tornWorld.files (torn.folder "output") ∧
    HasHalflessManifest tornWorld.files torn ∧
    (run tornWorld ["timeline", "ep.fsl"]).1 = .raised (.badJson .expectingName 1 2 1) ∧
    Slips tornWorld.files tornWorld.now torn := by
  have hRequest : requestOfLine ["timeline", "ep.fsl"] = .ok (.timeline torn, false) := by
    decide +kernel
  have hRaised : (run tornWorld ["timeline", "ep.fsl"]).1 =
      .raised (.badJson .expectingName 1 2 1) := by decide +kernel
  have hReported :=
    timeline_reported_iff hRequest rfl torn_isWritable torn_hasHalflessManifest
  rw [hRaised] at hReported
  refine ⟨hRequest, rfl, torn_isWritable, torn_hasHalflessManifest, hRaised, ?_⟩
  by_contra hNone
  rcases hReported.mpr hNone with hExit | ⟨hExit, -⟩ <;> cases hExit

end Radioplay.Command
