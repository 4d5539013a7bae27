import Radioplay.Proofs.Command.Reports
import Radioplay.Proofs.Library.Again
import Radioplay.Proofs.Manifest.Again

/-! A timeline run and the same run once more. The first changes two files, and makes folders only
on the way to them. The second finds all that it asks for as the first did, if nothing of it has
been written over, and then writes what is there already. -/

namespace Radioplay.Command

open Preview FileTree

/-- Is this the place of an artifact in a folder? -/
def IsArtifact (t : FileTree) (folder : String) (p : List String) : Prop :=
  t.locate (scriptPath folder) = .ok p ∨ t.locate (timelinePath folder) = .ok p

/-- What a timeline run leaves in the files: the script and the timeline as JSON texts. All else is
as it was, but for folders that have been made on the way to theirs. -/
structure Leaves (folder : String) (script : Script) (t : Timeline Number)
    (before after : FileTree) : Prop where
  script_read : ∃ text, Json.print script.toValue = .ok text ∧
    after.read (scriptPath folder) = .ok (Text.encode text)
  timeline_read : ∃ value text, t.toValue = .ok value ∧ Json.print value = .ok text ∧
    after.read (timelinePath folder) = .ok (Text.encode text)
  frame : ∀ p, after.node? p = before.node? p ∨ IsArtifact after folder p ∨
    (before.node? p = none ∧ after.node? p = some .folder ∧
      ∃ k, after.locate (Path.parent^[k] folder) = .ok p)

variable {folder : String} {script : Script} {t : Timeline Number}
  {before made scripted after : FileTree}

/-- What the three steps of writing an episode have done. -/
structure Filed (folder : String) (script : Script) (t : Timeline Number)
    (before made scripted after : FileTree) : Prop where
  makes : MakesFolders (fun q => ∃ k, q = Path.parent^[k] folder) before made
  isFolder : made.isFolder folder = true
  puts_script : ∃ text p, Json.print script.toValue = .ok text ∧
    PutsFile (scriptPath folder) (Text.encode text) p made scripted
  puts_timeline : ∃ value text p, t.toValue = .ok value ∧ Json.print value = .ok text ∧
    PutsFile (timelinePath folder) (Text.encode text) p scripted after

theorem Writes.filed (h : Writes folder script t before made scripted after) :
    Filed folder script t before made scripted after := by
  obtain ⟨hMakes, hFolder⟩ := ensureFolders_makes h.made_eq
  obtain ⟨text, p, hPrint, hPuts⟩ := Artifact.putsFile_of_writeValue h.scripted_eq
  obtain ⟨value, hValue, hTimed⟩ := h.timed_eq
  obtain ⟨text', p', hPrint', hPuts'⟩ := Artifact.putsFile_of_writeValue hTimed
  exact ⟨hMakes, hFolder, ⟨text, p, hPrint, hPuts⟩, value, text', p', hValue, hPrint', hPuts'⟩

theorem Filed.extended (h : Filed folder script t before made scripted after) :
    Extends before after := by
  obtain ⟨_, _, -, hScript⟩ := h.puts_script
  obtain ⟨_, _, _, -, -, hTimeline⟩ := h.puts_timeline
  exact (h.makes.extended.trans hScript.extended).trans hTimeline.extended

theorem Filed.isFolder_after (h : Filed folder script t before made scripted after) :
    after.isFolder folder = true := by
  obtain ⟨_, _, -, hScript⟩ := h.puts_script
  obtain ⟨_, _, _, -, -, hTimeline⟩ := h.puts_timeline
  exact (hScript.extended.folders.trans hTimeline.extended.folders).isFolder h.isFolder

theorem Filed.leaves (h : Filed folder script t before made scripted after) :
    Leaves folder script t before after := by
  obtain ⟨text, p, hPrint, hScript⟩ := h.puts_script
  obtain ⟨value, text', q, hValue, hPrint', hTimeline⟩ := h.puts_timeline
  have hLater := hTimeline.extended.folders
  have hPlace : after.locate (scriptPath folder) = .ok p := hLater.locate hScript.locate_after
  have hApart := place_ne_of_artifacts hPlace hTimeline.locate_after
  refine ⟨⟨text, hPrint, read_eq_ok_iff.mpr ⟨p, hPlace, ?_⟩⟩,
    ⟨value, text', hValue, hPrint', hTimeline.read⟩, fun r => ?_⟩
  · rw [hTimeline.node?_eq, if_neg hApart, hScript.node?_self]
  · -- Since the folders were made nothing has been put anywhere but in the artifacts' places.
    by_cases hq : r = q
    · exact .inr (.inl (.inr (hq ▸ hTimeline.locate_after)))
    by_cases hp : r = p
    · exact .inr (.inl (.inl (hp ▸ hPlace)))
    have hLast : after.node? r = made.node? r := by
      rw [hTimeline.node?_eq, if_neg hq, hScript.node?_eq, if_neg hp]
    rw [hLast]
    rcases h.makes.made r with hSame | ⟨hNone, hFolder, path, ⟨k, rfl⟩, hLocate⟩
    · exact .inl hSame
    · exact .inr (.inr ⟨hNone, hFolder, k, hLater.locate (hScript.extended.folders.locate hLocate)⟩)

/-! ### The run once more -/

/-- Is what a timeline has been made of apart from what is written? Neither artifact is the script,
the settings or a clip that has been loaded, and the output folder is not in the asset tree. -/
structure Making.IsApart (m : Making) (e : Episode) (folder : String) (before after : FileTree) :
    Prop where
  script : ∀ p, before.locate e.file = .ok p → ¬ IsArtifact after folder p
  config : ∀ path ∈ e.config, ∀ p, before.locate path = .ok p → ¬ IsArtifact after folder p
  clips : ∀ path, (m.shelf.library.clips.get? path).isSome → ∀ p, before.locate path = .ok p →
    ¬ IsArtifact after folder p
  output : ∀ a f, after.LeadsTo m.assets a → after.LeadsTo folder f → ¬ a <+: f

/-- Have the folders made on the way to the output folder nothing to do with the asset tree either?
None was needed to come to it, and none of them is in it. -/
structure Making.IsClear (m : Making) (e : Episode) (folder : String) (before after : FileTree) :
    Prop extends m.IsApart e folder before after where
  leads : ∀ a, after.LeadsTo m.assets a → before.LeadsTo m.assets a
  made : ∀ a, after.LeadsTo m.assets a →
    ∀ p, before.node? p = none → after.node? p = some .folder → ¬ a <+: p

variable {m : Making} {e : Episode}

/-- What has been there, and is no artifact, stays. -/
theorem Leaves.kept (h : Leaves folder script t before after) {p : List String}
    (hThere : (before.node? p).isSome) (hOther : ¬ IsArtifact after folder p) :
    after.node? p = before.node? p := by
  rcases h.frame p with hSame | hArtifact | ⟨hNone, -, -⟩
  · exact hSame
  · exact absurd hArtifact hOther
  · rw [hNone] at hThere
    cases hThere

theorem Leaves.read_kept (h : Leaves folder script t before after)
    (hKeeps : KeepsFolders before after)
    {path : String} {bytes : List UInt8} (hRead : before.read path = .ok bytes)
    (hOther : ∀ p, before.locate path = .ok p → ¬ IsArtifact after folder p) :
    after.read path = .ok bytes := by
  obtain ⟨p, hLocate, hNode⟩ := read_eq_ok_iff.mp hRead
  have hKept := h.kept (by rw [hNode]; rfl) (hOther p hLocate)
  exact read_eq_ok_iff.mpr ⟨p, hKeeps.locate hLocate, hKept.trans hNode⟩

/-- An artifact in a folder is put there by its name, and is no folder. -/
theorem Leaves.artifact (h : Leaves folder script t before after) {p : List String}
    (hArtifact : IsArtifact after folder p) :
    ∃ f x, after.LeadsTo folder f ∧ p = f ++ [x] ∧ after.node? p ≠ some .folder := by
  have hFile {path : String} {bytes : List UInt8} (hRead : after.read path = .ok bytes)
      (hLocate : after.locate path = .ok p) : after.node? p ≠ some .folder := by
    obtain ⟨q, hPlace, hNode⟩ := read_eq_ok_iff.mp hRead
    obtain rfl : q = p := Except.ok.inj (hPlace.symm.trans hLocate)
    rw [hNode]
    exact fun hFolder => nomatch hFolder
  rcases hArtifact with hScript | hTimeline
  · obtain ⟨text, -, hRead⟩ := h.script_read
    obtain ⟨-, f, hFolder, hPlace⟩ := (locate_below isName_script).mp hScript
    exact ⟨f, _, hFolder, hPlace, hFile hRead hScript⟩
  · obtain ⟨value, text, -, -, hRead⟩ := h.timeline_read
    obtain ⟨-, f, hFolder, hPlace⟩ := (locate_below isName_timeline).mp hTimeline
    exact ⟨f, _, hFolder, hPlace, hFile hRead hTimeline⟩

/-- The asset tree is left alone. -/
theorem Making.IsClear.alike (hClear : m.IsClear e folder before after)
    (h : Leaves folder script t before after) (hKeeps : KeepsFolders before after) :
    AlikeUnder before after m.assets := by
  have hAfter (a : List String) (ha : before.LeadsTo m.assets a) : after.LeadsTo m.assets a :=
    ⟨hKeeps.locate ha.1, hKeeps a ha.2⟩
  refine ⟨fun a => ⟨fun ha => hClear.leads a ha, hAfter a⟩, fun a ha p hp => ?_⟩
  rcases h.frame p with hSame | hArtifact | ⟨hNone, hFolder, -⟩
  · exact hSame
  · obtain ⟨f, x, hLeads, rfl, hFile⟩ := h.artifact hArtifact
    rcases List.prefix_concat_iff.mp hp with rfl | hp
    · exact absurd (hAfter _ ha).2 hFile
    · exact absurd hp (hClear.output a f (hAfter a ha) hLeads)
  · exact absurd hp (hClear.made a (hAfter a ha) p hNone hFolder)

theorem resolveBy_congr {m m' : Value} {assets : String}
    (h : ∀ character state,
      Manifest.resolve m' assets character state = Manifest.resolve m assets character state) :
    resolveBy m' assets = resolveBy m assets := by
  funext character state
  unfold resolveBy
  cases character with
  | none => rfl
  | some name => simp only [h]

/-- A timeline is made again in the same way. -/
theorem Making.IsOf.again [Sound.Kit] {now : String} (hMade : m.IsOf before now e)
    (hNamed : before.IsNamed) (h : Leaves folder script t before after)
    (hGrown : Extends before after) (hClear : m.IsClear e folder before after) (now' : String) :
    ∃ manifest, { m with manifest := manifest }.IsOf after now' e := by
  obtain ⟨manifest, hManifest, hResolve⟩ :=
    Manifest.load_again hGrown hNamed (hClear.alike h hGrown.folders) hMade.manifest_eq now'
  refine ⟨manifest, ?_, hMade.script_eq, hMade.events_ne, ?_, hMade.assets_eq, hManifest, ?_⟩
  · obtain ⟨bytes, hRead, hText⟩ := bind_eq_ok.mp hMade.text_eq
    exact bind_eq_ok.mpr ⟨bytes, h.read_kept hGrown.folders hRead hClear.script, hText⟩
  · refine Artifact.loadTiming_again hMade.timing_eq hGrown.folders ?_
    exact fun path hPath p hLocate hThere => h.kept hThere (hClear.config path hPath p hLocate)
  · have hTimed := hMade.timed_eq
    rw [timed] at hTimed ⊢
    rw [resolveBy_congr hResolve]
    exact Library.generate_again hTimed fun path hLoaded raw hRead =>
      Library.read_again hRead fun bytes hBytes =>
        h.read_kept hGrown.folders hBytes (hClear.clips path hLoaded)

/-- What is there already is written again, and nothing changes. -/
theorem Filed.again (h : Filed folder script t before made scripted after) :
    ∃ scripted' after', Writes folder script t after after scripted' after' ∧
      SameNodes after after' := by
  obtain ⟨text, p, hPrint, hScript⟩ := h.puts_script
  obtain ⟨value, text', q, hValue, hPrint', hTimeline⟩ := h.puts_timeline
  have hLater := hTimeline.extended.folders
  have hPlace : after.locate (scriptPath folder) = .ok p := hLater.locate hScript.locate_after
  have hApart := place_ne_of_artifacts hPlace hTimeline.locate_after
  have hThere : after.node? p = some (.file (Text.encode text)) := by
    rw [hTimeline.node?_eq, if_neg hApart, hScript.node?_self]
  obtain ⟨scripted', hScripted', hSame⟩ :=
    Artifact.writeValue_again hPrint hScript.trimmed hPlace hThere
  obtain ⟨after', hAfter', hSame'⟩ := Artifact.writeValue_again hPrint' hTimeline.trimmed
    (hSame.keepsFolders.locate hTimeline.locate_after) ((hSame q).trans hTimeline.node?_self)
  exact ⟨scripted', after',
    ⟨ensureFolders_of_isFolder h.isFolder_after, hScripted', value, hValue, hAfter'⟩,
    hSame.trans hSame'⟩

/-- A timeline run that comes to its end leaves the script and the timeline in the episode's folder
and nothing else but folders on the way there. If nothing that it was made of is in the way, the
same run at any later time comes to its end too, and leaves all as it is. -/
theorem timeline_leaves [Sound.Kit] {world : World} {words : List String} {verbose : Bool}
    {s : Session} (hRequest : requestOfLine words = .ok (.timeline e, verbose))
    (hRun : run world words = (.exit 0, s)) :
    ∃ (m : Making) (output : String), m.IsOf world.files world.now e ∧ e.output = some output ∧
      Leaves (e.folder output) m.script m.timeline world.files s.desk.files ∧
      s.desk.encodings = [] ∧
      (world.files.IsNamed → m.IsClear e (e.folder output) world.files s.desk.files →
        ∀ now, ∃ s', run { world with files := s.desk.files, now := now } words = (.exit 0, s') ∧
          SameNodes s.desk.files s'.desk.files ∧ s'.desk.encodings = []) := by
  obtain ⟨m, output, made, scripted, timed, hMade, hOutput, hWrites, ⟨told, hTold⟩, hDesk⟩ :=
    runTimeline_ok ((run_timeline_eq_exit_iff hRequest).mp hRun)
  have hFiles : s.desk.files = timed := by rw [hDesk]
  have hFiled := hWrites.filed
  refine ⟨m, output, hMade, hOutput, hFiles ▸ hFiled.leaves, by rw [hDesk]; rfl, ?_⟩
  rw [hFiles]
  intro hNamed hClear now
  obtain ⟨manifest, hAgain⟩ := hMade.again hNamed hFiled.leaves hFiled.extended hClear now
  obtain ⟨scripted', after', hWrites', hSame⟩ := hFiled.again
  obtain ⟨s', hRun', hDesk'⟩ : ∃ s',
      (runTimeline { world with files := timed, now := now } verbose e).perform (.before timed) =
        (.ok (), s') ∧ s'.desk = { files := after' } :=
    runTimeline_of hAgain hOutput hWrites' hTold
  refine ⟨s', (run_timeline_eq_exit_iff hRequest).mpr hRun', ?_, by rw [hDesk']⟩
  rw [hDesk']
  exact hSame

/-! ### Two runs seen -/

/-- The clips that are loaded for an episode. -/
def clipsLoaded [Sound.Kit] (world : World) (e : Episode) : List String :=
  match ((buildTimeline world false e).perform (.before world.files)).1 with
  | .ok (_, _, library) => library.clips.map Prod.fst
  | .error _ => []

theorem Making.IsOf.mem_clipsLoaded [Sound.Kit] {world : World}
    (hMade : m.IsOf world.files world.now e) {path : String}
    (hPath : (m.shelf.library.clips.get? path).isSome) : path ∈ clipsLoaded world e := by
  have hBuild : (buildTimeline world false e).perform (.before world.files) =
      (.ok (m.script, m.timeline, m.shelf.library), _) :=
    perform_buildTimeline_eq_ok.mpr ⟨m, hMade, rfl, rfl⟩
  rw [clipsLoaded, hBuild]
  obtain ⟨entry, hMem, hName⟩ := List.lookup_isSome_iff.mp hPath
  exact List.mem_map.mpr ⟨entry, hMem, (eq_of_beq hName).symm⟩

/-- Places show that a timeline is apart from what is written. -/
theorem Making.IsOf.isApart [Sound.Kit] {world : World} {assets : String} {p q a f : List String}
    (hMade : m.IsOf world.files world.now e) (hGiven : e.assets = some assets)
    (hAssets : after.locate assets = .ok a) (hScript : after.locate (scriptPath folder) = .ok p)
    (hTimeline : after.locate (timelinePath folder) = .ok q)
    (hRead : ∀ path ∈ e.file :: (e.config.toList ++ clipsLoaded world e),
      ∃ r, world.files.locate path = .ok r ∧ r ≠ p ∧ r ≠ q)
    (hFolder : after.locate folder = .ok f) (hOutside : ¬ a <+: f) :
    m.IsApart e folder world.files after := by
  have hOther {path : String} (hPath : path ∈ e.file :: (e.config.toList ++ clipsLoaded world e))
      (r : List String) (hLocate : world.files.locate path = .ok r) :
      ¬ IsArtifact after folder r := by
    obtain ⟨r', hPlace, hp, hq⟩ := hRead path hPath
    obtain rfl : r' = r := Except.ok.inj (hPlace.symm.trans hLocate)
    rintro (hArtifact | hArtifact)
    · exact hp (Except.ok.inj (hArtifact.symm.trans hScript))
    · exact hq (Except.ok.inj (hArtifact.symm.trans hTimeline))
  refine ⟨hOther List.mem_cons_self, fun path hPath => hOther ?_, fun path hPath => hOther ?_,
    fun a' f' ha hf => ?_⟩
  · exact List.mem_cons_of_mem _ (List.mem_append_left _ (Option.mem_toList.mpr hPath))
  · exact List.mem_cons_of_mem _ (List.mem_append_right _ (hMade.mem_clipsLoaded hPath))
  · obtain rfl : assets = m.assets := Option.some.inj (hGiven.symm.trans hMade.assets_eq)
    rw [((leadsTo_iff_of_locate hAssets).mp ha).1, ((leadsTo_iff_of_locate hFolder).mp hf).1]
    exact hOutside

/-- What stands beside the nodes that were there is nowhere under a place if no new place is. -/
theorem not_prefix_of_keys {before after : FileTree} {a p : List String} {new : List (List String)}
    (hKeys : after.keys = before.keys ++ new) (hNew : ∀ q ∈ new, ¬ a <+: q)
    (hNone : before.node? p = none) (hFolder : after.node? p = some .folder) : ¬ a <+: p := by
  have hThere : (after.node? p).isSome = true := by rw [hFolder]; rfl
  rw [← Option.not_isSome_iff_eq_none, node?_isSome_iff] at hNone
  rw [node?_isSome_iff, hKeys] at hThere
  rcases hThere with hGiven | hMem
  · exact absurd (.inl hGiven) hNone
  rcases List.mem_append.mp hMem with hOld | hMade
  · exact absurd (.inr hOld) hNone
  · exact hNew p hMade

def textFile (text : String) : Node := .file (Text.encode text.toList)

def castList : String :=
  "\x7b\"characters\": \x7b\"mario\": \x7b\"states\": " ++
    "\x7b\"neutral\": \x7b\"audio\": [\"a.wav\"]\x7d\x7d\x7d\x7d\x7d"

/-- A sound file of one second, with four frames. -/
def knock : List UInt8 :=
  [0x52, 0x49, 0x46, 0x46, 40, 0, 0, 0, 0x57, 0x41, 0x56, 0x45,
    0x66, 0x6D, 0x74, 0x20, 16, 0, 0, 0, 1, 0, 1, 0, 4, 0, 0, 0, 4, 0, 0, 0, 1, 0, 8, 0,
    0x64, 0x61, 0x74, 0x61, 4, 0, 0, 0, 128, 128, 0, 255]

/-- A clip of Mario's, and a manifest that names it. -/
def castNodes : List (List String × Node) :=
  [(["assets"], .folder), (["assets", "manifest.json"], textFile castList),
    (["assets", "characters"], .folder), (["assets", "characters", "mario"], .folder),
    (["assets", "characters", "mario", "states"], .folder),
    (["assets", "characters", "mario", "states", "neutral"], .folder),
    (["assets", "characters", "mario", "states", "neutral", "audio"], .folder),
    (["assets", "characters", "mario", "states", "neutral", "audio", "a.wav"], .file knock)]

def outlineWorld : World where
  files := ⟨(["ep.fsl"], textFile "mario: Hi.") ::
    (["cfg.json"], textFile "\x7b\"energyWindowMs\": 250\x7d") :: castNodes⟩
  encoderFound := false
  folder := "/home"
  now := "2024-05-01T12:00:00"

def outlineWords : List String := ["timeline", "ep.fsl", "--config", "cfg.json"]

def outline : Episode := ⟨"ep.fsl", some "assets", some "cfg.json", some "output"⟩

def outlineEnd : Ending × Session := run outlineWorld outlineWords

theorem outline_seen : requestOfLine outlineWords = .ok (.timeline outline, false) ∧
    outlineEnd.1 = .exit 0 ∧
    clipsLoaded outlineWorld outline = ["assets/characters/mario/states/neutral/audio/a.wav"] ∧
    outlineEnd.2.desk.files.locate "output/ep/script.json" = .ok ["output", "ep", "script.json"] ∧
    outlineEnd.2.desk.files.locate "output/ep/timeline.json" =
      .ok ["output", "ep", "timeline.json"] ∧
    outlineEnd.2.desk.files.locate "output/ep" = .ok ["output", "ep"] ∧
    outlineEnd.2.desk.files.locate "assets" = .ok ["assets"] ∧
    outlineEnd.2.desk.files.keys = outlineWorld.files.keys ++ [["output"], ["output", "ep"],
      ["output", "ep", "script.json"], ["output", "ep", "timeline.json"]] := by decide +kernel

/-- Everything that the run reads has a place other than those of the artifacts. -/
theorem outline_read : ∀ path ∈ ["ep.fsl", "cfg.json",
      "assets/characters/mario/states/neutral/audio/a.wav"],
    ∃ r, outlineWorld.files.locate path = .ok r ∧ r ≠ ["output", "ep", "script.json"] ∧
      r ≠ ["output", "ep", "timeline.json"] :=
  List.forall_mem_cons.mpr ⟨⟨["ep.fsl"], by decide +kernel, by decide, by decide⟩,
    List.forall_mem_cons.mpr ⟨⟨["cfg.json"], by decide +kernel, by decide, by decide⟩,
      List.forall_mem_singleton.mpr
        ⟨["assets", "characters", "mario", "states", "neutral", "audio", "a.wav"],
          by decide +kernel, by decide, by decide⟩⟩⟩

theorem outline_isClear (hMade : m.IsOf outlineWorld.files outlineWorld.now outline) :
    m.IsClear outline (outline.folder "output") outlineWorld.files outlineEnd.2.desk.files := by
  obtain ⟨-, -, hClips, hScript, hTimeline, hFolder, hAssets, hKeys⟩ := outline_seen
  have hFolderPath : outline.folder "output" = "output/ep" := by decide +kernel
  have hAssetsPath : m.assets = "assets" := (Option.some.inj hMade.assets_eq).symm
  have hLeads {a : List String} (ha : outlineEnd.2.desk.files.LeadsTo m.assets a) :
      a = ["assets"] := by
    rw [hAssetsPath] at ha
    exact ((leadsTo_iff_of_locate hAssets).mp ha).1
  rw [hFolderPath]
  refine ⟨hMade.isApart rfl hAssets hScript hTimeline ?_ hFolder (by decide), fun a ha => ?_,
    fun a ha p => ?_⟩
  · rw [hClips]
    exact outline_read
  · obtain rfl := hLeads ha
    rw [hAssetsPath]
    exact ⟨by decide +kernel, by decide +kernel⟩
  · obtain rfl := hLeads ha
    exact not_prefix_of_keys hKeys (by decide)

/-- A run that can be made again: it loads a clip, nothing is in the way, and the second run changes
nothing. -/
theorem timeline_leaves_outline :
    requestOfLine outlineWords = .ok (.timeline outline, false) ∧
    run outlineWorld outlineWords = (.exit 0, outlineEnd.2) ∧ outlineWorld.files.IsNamed ∧
    clipsLoaded outlineWorld outline = ["assets/characters/mario/states/neutral/audio/a.wav"] ∧
    ∃ m : Making, m.IsOf outlineWorld.files outlineWorld.now outline ∧
      Leaves (outline.folder "output") m.script m.timeline outlineWorld.files
        outlineEnd.2.desk.files ∧
      m.IsClear outline (outline.folder "output") outlineWorld.files outlineEnd.2.desk.files ∧
      ∀ now, ∃ s', run { outlineWorld with files := outlineEnd.2.desk.files, now := now }
          outlineWords = (.exit 0, s') ∧ SameNodes outlineEnd.2.desk.files s'.desk.files := by
  obtain ⟨hRequest, hExit, hClips, -⟩ := outline_seen
  have hRun : run outlineWorld outlineWords = (.exit 0, outlineEnd.2) := run_eq_of_exit hExit
  have hNamed : outlineWorld.files.IsNamed := isNamed_of_forall (by decide +kernel)
  obtain ⟨m, output, hMade, hOutput, hLeaves, -, hAgain⟩ := timeline_leaves hRequest hRun
  obtain rfl : "output" = output := Option.some.inj hOutput
  have hClear := outline_isClear hMade
  refine ⟨hRequest, hRun, hNamed, hClips, m, hMade, hLeaves, hClear, fun now => ?_⟩
  obtain ⟨s', hRun', hSame, -⟩ := hAgain hNamed hClear now
  exact ⟨s', hRun', hSame⟩

/-! ### Runs that fail the second time -/

/-- Does a run come to its end apart from all that its timeline is made of, and the same run once
more not? -/
structure FailsAgain [Sound.Kit] (world : World) (words : List String) (e : Episode)
    (output : String) (s : Session) : Prop where
  request : requestOfLine words = .ok (.timeline e, false)
  run_eq : run world words = (.exit 0, s)
  isNamed : world.files.IsNamed
  output_eq : e.output = some output
  isApart : ∃ m : Making, m.IsOf world.files world.now e ∧
    m.IsApart e (e.folder output) world.files s.desk.files
  again : (run { world with files := s.desk.files } words).1 ≠ .exit 0

/-- Places show that a run which reads its script alone is apart, and fails the second time. -/
theorem failsAgain_of_places [Sound.Kit] {world : World} {words : List String} {s : Session}
    {output assets : String} {p q r a f : List String}
    (hRequest : requestOfLine words = .ok (.timeline e, false))
    (hRun : run world words = (.exit 0, s)) (hNamed : world.files.IsNamed)
    (hOutput : e.output = some output) (hGiven : e.assets = some assets)
    (hConfig : e.config = none) (hClips : clipsLoaded world e = [])
    (hFile : world.files.locate e.file = .ok r) (hOther : r ≠ p ∧ r ≠ q)
    (hAssets : s.desk.files.locate assets = .ok a)
    (hScript : s.desk.files.locate (scriptPath (e.folder output)) = .ok p)
    (hTimeline : s.desk.files.locate (timelinePath (e.folder output)) = .ok q)
    (hFolder : s.desk.files.locate (e.folder output) = .ok f) (hOutside : ¬ a <+: f)
    (hAgain : (run { world with files := s.desk.files } words).1 ≠ .exit 0) :
    FailsAgain world words e output s := by
  have hRead : ∀ path ∈ e.file :: (e.config.toList ++ clipsLoaded world e),
      ∃ r, world.files.locate path = .ok r ∧ r ≠ p ∧ r ≠ q := by
    rw [hConfig, hClips]
    exact List.forall_mem_singleton.mpr ⟨r, hFile, hOther⟩
  obtain ⟨m, _, _, _, _, hMade, -⟩ := runTimeline_ok ((run_timeline_eq_exit_iff hRequest).mp hRun)
  exact ⟨hRequest, hRun, hNamed, hOutput,
    ⟨m, hMade, hMade.isApart hGiven hAssets hScript hTimeline hRead hFolder hOutside⟩, hAgain⟩

/-- A script and no clips; the way to the output folder goes over the place of the manifest. -/
def decoyWorld : World where
  files := ⟨[(["ep.fsl"], textFile "mario: Hi."), (["assets"], .folder)]⟩
  encoderFound := false
  folder := "/home"
  now := "2024-05-01T12:00:00"

def decoyWords : List String := ["timeline", "ep.fsl", "--output", "assets/manifest.json/../.."]

def decoy : Episode := ⟨"ep.fsl", some "assets", none, some "assets/manifest.json/../.."⟩

def decoyEnd : Ending × Session := run decoyWorld decoyWords

def decoyAgain : Ending × Session :=
  run { decoyWorld with files := decoyEnd.2.desk.files } decoyWords

theorem decoy_seen : requestOfLine decoyWords = .ok (.timeline decoy, false) ∧
    decoyEnd.1 = .exit 0 ∧ clipsLoaded decoyWorld decoy = [] ∧
    decoyEnd.2.desk.files.locate (scriptPath (decoy.folder "assets/manifest.json/../..")) =
      .ok ["ep", "script.json"] ∧
    decoyEnd.2.desk.files.locate (timelinePath (decoy.folder "assets/manifest.json/../..")) =
      .ok ["ep", "timeline.json"] ∧
    decoyEnd.2.desk.files.locate (decoy.folder "assets/manifest.json/../..") = .ok ["ep"] ∧
    decoyEnd.2.desk.files.locate "assets" = .ok ["assets"] ∧
    decoyAgain.1 = .raised (.file .isFolder "assets/manifest.json") := by
  decide +kernel

theorem decoy_failsAgain :
    FailsAgain decoyWorld decoyWords decoy "assets/manifest.json/../.." decoyEnd.2 := by
  obtain ⟨hRequest, hExit, hClips, hScript, hTimeline, hFolder, hAssets, hAgain⟩ := decoy_seen
  have hRun : run decoyWorld decoyWords = (.exit 0, decoyEnd.2) := run_eq_of_exit hExit
  have hFile : decoyWorld.files.locate decoy.file = .ok ["ep.fsl"] := by decide +kernel
  exact failsAgain_of_places hRequest hRun (isNamed_of_forall (by decide +kernel)) rfl rfl rfl
    hClips hFile ⟨by decide, by decide⟩ hAssets hScript hTimeline hFolder (by decide)
    fun hEnd => nomatch hAgain.symm.trans hEnd

/-- A script, and assets that are looked for by way of the output folder, which is not there yet. -/
def detourWorld : World where
  files := ⟨[(["ep.fsl"], textFile "mario: Hi."), (["assets"], .folder),
    (["assets", "manifest.json"], textFile promise)]⟩
  encoderFound := false
  folder := "/home"
  now := "2024-05-01T12:00:00"

def detourWords : List String := ["timeline", "ep.fsl", "--assets", "output/ep/../../assets"]

def detour : Episode := ⟨"ep.fsl", some "output/ep/../../assets", none, some "output"⟩

def detourEnd : Ending × Session := run detourWorld detourWords

def detourAgain : Ending × Session :=
  run { detourWorld with files := detourEnd.2.desk.files } detourWords

theorem detour_seen : requestOfLine detourWords = .ok (.timeline detour, false) ∧
    detourEnd.1 = .exit 0 ∧ clipsLoaded detourWorld detour = [] ∧
    detourEnd.2.desk.files.locate (scriptPath (detour.folder "output")) =
      .ok ["output", "ep", "script.json"] ∧
    detourEnd.2.desk.files.locate (timelinePath (detour.folder "output")) =
      .ok ["output", "ep", "timeline.json"] ∧
    detourEnd.2.desk.files.locate (detour.folder "output") = .ok ["output", "ep"] ∧
    detourEnd.2.desk.files.locate "output/ep/../../assets" = .ok ["assets"] ∧
    detourEnd.2.desk.files.keys = detourWorld.files.keys ++ [["output"], ["output", "ep"],
      ["output", "ep", "script.json"], ["output", "ep", "timeline.json"]] ∧
    detourAgain.1 = .exit 1 := by
  decide +kernel

theorem detour_failsAgain :
    FailsAgain detourWorld detourWords detour "output" detourEnd.2 := by
  obtain ⟨hRequest, hExit, hClips, hScript, hTimeline, hFolder, hAssets, -, hAgain⟩ := detour_seen
  have hRun : run detourWorld detourWords = (.exit 0, detourEnd.2) := run_eq_of_exit hExit
  have hFile : detourWorld.files.locate detour.file = .ok ["ep.fsl"] := by decide +kernel
  exact failsAgain_of_places hRequest hRun (isNamed_of_forall (by decide +kernel)) rfl rfl rfl
    hClips hFile ⟨by decide, by decide⟩ hAssets hScript hTimeline hFolder (by decide)
    fun hEnd => nomatch hAgain.symm.trans hEnd

/-- That the output folder is not in the asset tree is not enough, and neither is one of the two
things that `Making.IsClear` asks for beside it. The first run here comes to the same assets before
and after, but makes a folder in them, where the second run looks for the manifest. The other makes
none there, but finds no assets at first; the second time it comes to them through the folder that
it has made, and fails for want of a clip. -/
theorem apart_notEnough :
    (FailsAgain decoyWorld decoyWords decoy "assets/manifest.json/../.." decoyEnd.2 ∧
      ∀ a, decoyEnd.2.desk.files.LeadsTo "assets" a → decoyWorld.files.LeadsTo "assets" a) ∧
    (FailsAgain detourWorld detourWords detour "output" detourEnd.2 ∧
      ∀ a, detourEnd.2.desk.files.LeadsTo "output/ep/../../assets" a →
        ∀ p, detourWorld.files.node? p = none → detourEnd.2.desk.files.node? p = some .folder →
          ¬ a <+: p) := by
  refine ⟨⟨decoy_failsAgain, fun a ha => ?_⟩, detour_failsAgain, fun a ha p => ?_⟩
  · obtain ⟨-, -, -, -, -, -, hAssets, -⟩ := decoy_seen
    obtain ⟨rfl, -⟩ := (leadsTo_iff_of_locate hAssets).mp ha
    exact ⟨by decide +kernel, by decide +kernel⟩
  · obtain ⟨-, -, -, -, -, -, hAssets, hKeys, -⟩ := detour_seen
    obtain ⟨rfl, -⟩ := (leadsTo_iff_of_locate hAssets).mp ha
    exact not_prefix_of_keys hKeys (by decide)

end Radioplay.Command
