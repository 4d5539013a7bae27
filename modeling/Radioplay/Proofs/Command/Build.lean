import Radioplay.Proofs.Command.Steps

/-! A timeline built in stages: the text of the script, its events, the settings, the manifest, and
the timeline that comes of them. -/

namespace Radioplay.Command

/-- The settings that an episode names. -/
def readSettings (files : FileTree) (config : Option String) : Run Timing :=
  match Artifact.loadTiming files config with
  | .ok t => pure t
  | .error fault =>
    if fault.isFileFault || fault.isContentFault then
      Run.failWith ("Could not read config: " ++ fault.message)
    else Run.stop (.raised fault)

/-- A script timed with clips of an asset tree, and the shelf that is left. -/
def timed [Sound.Kit] (files : FileTree) (manifest : Value) (assets : String) (timing : Timing)
    (script : Script) : Except Fault (Timeline Number × Generator) × Shelf Number :=
  (Timeline.generate (Library.studio files (resolveBy manifest assets)) timing script none).perform
    { library := Library.ofTiming timing, cache := Energy.Cache.empty }

/-- Logs what was noted on the way to a timeline, and hands the timeline over. -/
def handOver (verbose : Bool) (script : Script)
    (made : Except Fault (Timeline Number × Generator) × Shelf Number) :
    Run (Script × Timeline Number × Library) := do
  logNotes verbose made.2.notes
  match made.1 with
  | .ok (timeline, _) => return (script, timeline, made.2.library)
  | .error fault =>
    if fault.isClipFault then Run.failWith fault.message else Run.stop (.raised fault)

theorem buildTimeline_eq [Sound.Kit] (world : World) (verbose : Bool) (e : Episode) :
    buildTimeline world verbose e = (do
      let text ← readScript e.file
      let script ← Run.ofExcept (Script.parse text)
      if script.events.isEmpty then Run.failWith ("No events in script: " ++ e.file)
      else
        let files ← Run.files
        let timing ← readSettings files e.config
        let assets ← Run.folder e.assets
        let manifest ← Run.ofExcept (Manifest.load files world.now assets)
        handOver verbose script (timed files manifest assets timing script)) := by
  unfold buildTimeline
  congr
  funext text
  congr
  funext script
  split
  · rfl
  congr
  funext files
  unfold readSettings
  cases Artifact.loadTiming files e.config with
  | ok timing => rfl
  | error fault =>
    simp only
    split <;> rfl

end Radioplay.Command
