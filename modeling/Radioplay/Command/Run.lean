import Radioplay.Command.Usage
import Radioplay.Library.Studio
import Radioplay.Manifest.Resolve
import Radioplay.Preview.Export
import Radioplay.Script.Parse
import Radioplay.Sound.Plain

/-! The commands, carried out on a file tree. A run ends with an exit status, or with a fault that
no command expects; what it has written and printed by then stays. -/

namespace Radioplay.Command

open Preview

/-- What a run finds around it. -/
structure World where
  files : FileTree
  /-- Is there a program that can encode a mix? -/
  encoderFound : Bool
  /-- The current folder, as messages show it. -/
  folder : String
  now : String

/-- How a run ends. -/
inductive Ending where
  | exit (status : Nat)
  | raised (fault : Fault)
  deriving DecidableEq, Repr

/-- What a run leaves behind. -/
structure Session where
  desk : Desk
  output : String := ""
  errors : String := ""
  deriving Inhabited

abbrev Run (α : Type) := ExceptT Ending (StateM Session) α

namespace Run

def stop {α : Type} (e : Ending) : Run α := ExceptT.mk (pure (.error e))

def ofExcept {α : Type} : Except Fault α → Run α
  | .ok a => pure a
  | .error fault => stop (.raised fault)

def print (line : String) : Run Unit :=
  modify fun s => { s with output := s.output ++ line ++ "\n" }

def complain (line : String) : Run Unit :=
  modify fun s => { s with errors := s.errors ++ line ++ "\n" }

/-- Ends the run with an error that has been reported. -/
def failWith {α : Type} (line : String) : Run α := do
  complain ("Error: " ++ line)
  stop (.exit 1)

def onDesk {α : Type} (a : Act Desk α) : Run α := do
  let s ← get
  let (outcome, desk) := a.perform s.desk
  set { s with desk := desk }
  ofExcept outcome

def files : Run FileTree := return (← get).desk.files

/-- A folder that has to be given. -/
def folder : Option String → Run String
  | some path => pure path
  | none => stop (.raised .wrongKind)

end Run

/-- A note as a line of the log; only a full log shows all of them. -/
def noteLine? (verbose : Bool) : Note → Option String
  | .warning source message => some ("WARNING " ++ source ++ ": " ++ message)
  | .debug source message =>
    if verbose then some ("DEBUG " ++ source ++ ": " ++ message) else none

def logNotes (verbose : Bool) (notes : List Note) : Run Unit :=
  let lines := (notes.filterMap (noteLine? verbose)).map (· ++ "\n")
  modify fun s => { s with errors := s.errors ++ String.join lines }

/-- The text of the script at a path. -/
def readScript (path : String) : Run (List Char) := do
  let files ← Run.files
  if !files.exists? path then Run.failWith ("File not found: " ++ path)
  else Run.ofExcept (files.read path >>= Text.ofScriptFile)

/-- A clip by a manifest; a character left out has no name to look up. -/
def resolveBy (manifest : Value) (assets : String) (character : Option String) (state : String) :
    Act (Shelf Number) (Option String) := do
  match character with
  | none => Act.fail .noMembers
  | some name =>
    let (answer, warnings) := (Manifest.resolve manifest assets name state).perform []
    modify fun s =>
      { s with notes := s.notes ++ warnings.map (Note.warning "fsl_previewer.manifest") }
    Act.ofExcept answer

/-- Reads, resolves, loads and times a script. -/
def buildTimeline [Sound.Kit] (world : World) (verbose : Bool) (e : Episode) :
    Run (Script × Timeline Number × Library) := do
  let text ← readScript e.file
  let script ← Run.ofExcept (Script.parse text)
  if script.events.isEmpty then Run.failWith ("No events in script: " ++ e.file)
  else
    let files ← Run.files
    let timing ←
      match Artifact.loadTiming files e.config with
      | .ok t => pure t
      | .error fault =>
        if fault.isFileFault || fault.isContentFault then
          Run.failWith ("Could not read config: " ++ fault.message)
        else Run.stop (.raised fault)
    let assets ← Run.folder e.assets
    let manifest ← Run.ofExcept (Manifest.load files world.now assets)
    let studio := Library.studio files (resolveBy manifest assets)
    let (outcome, shelf) := (Timeline.generate studio timing script none).perform
      { library := Library.ofTiming timing, cache := Energy.Cache.empty }
    logNotes verbose shelf.notes
    match outcome with
    | .ok (timeline, _) => return (script, timeline, shelf.library)
    | .error fault =>
      if fault.isClipFault then Run.failWith fault.message else Run.stop (.raised fault)

/-- The remainder of a double by sixty, of the double's own sign; it is always exact. -/
def remainder60 (x : Float) (p : Binary64.Parts) : Float :=
  let (n, d) := p.magnitude
  (Binary64.nearest? p.negative (n % (60 * d)) d).getD x

/-- Whole minutes and the seconds beyond them. -/
def minutesAndSeconds (seconds : Float) : Except Fault (Int × Int) := do
  match Binary64.parts? seconds with
  | none => throw .notANumber
  | some p =>
    let r := remainder60 seconds p
    let whole := (seconds - r) / 60
    let (rest, minutes) := if r < 0 then (r + 60, whole - 1) else (r, whole)
    let floor := Binary64.floor minutes
    let minutes := if minutes - floor > 0.5 then floor + 1 else floor
    return (← (Number.float minutes).trunc, ← (Number.float rest).trunc)

def twoDigits (n : Int) : String :=
  let s := toString n
  if s.length < 2 then "0" ++ s else s

/-- Tells what a timeline holds. -/
def printSummary (slug : String) (t : Timeline Number) : Run Unit := do
  let seconds ← Run.ofExcept (totalSeconds t)
  Run.print ("Episode: " ++ slug ++ " (seed " ++ toString t.seed ++ ")")
  Run.print ("Events: " ++ toString t.entries.length ++ " (" ++ toString t.lines.length ++
    " lines, " ++ toString t.captionCount ++ " caption-only)")
  let x ← Run.ofExcept seconds.toFloat
  let (minutes, rest) ← Run.ofExcept (minutesAndSeconds x)
  Run.print ("Duration: " ++ toString minutes ++ ":" ++ twoDigits rest)

/-- Writes the script and the timeline of an episode; the answer is the folder and the path of the
timeline. -/
def writeEpisode (e : Episode) (script : Script) (t : Timeline Number) : Run (String × String) := do
  let output ← Run.folder e.output
  let folder ← Run.onDesk (onFiles (Artifact.makeFolder e.file output))
  let _ ← Run.onDesk (onFiles (Artifact.write folder "script.json" script.toValue))
  let value ← Run.ofExcept t.toValue
  let path ← Run.onDesk (onFiles (Artifact.write folder "timeline.json" value))
  return (folder, path)

def runParse (file : String) : Run Unit := do
  let text ← readScript file
  let script ← Run.ofExcept (Script.parse text)
  let json ← Run.ofExcept (Json.print script.toValue)
  Run.print (String.ofList json)

def runManifest (world : World) (assets : String) : Run Unit := do
  let files ← Run.files
  if !files.isFolder assets then Run.failWith ("Assets folder not found: " ++ assets)
  else
    let path ← Run.onDesk (onFiles (Manifest.write world.now assets))
    Run.print ("Manifest generated: " ++ path)

def runTimeline [Sound.Kit] (world : World) (verbose : Bool) (e : Episode) : Run Unit := do
  let (script, t, _) ← buildTimeline world verbose e
  let (_, path) ← writeEpisode e script t
  printSummary (Slug.ofPath e.file) t
  Run.print ("Timeline written to " ++ path)

def runRender [Sound.Kit] (world : World) (verbose : Bool) (e : Episode) : Run Unit := do
  if !world.encoderFound then
    Run.complain "Error: ffmpeg is required but not found."
    Run.complain "Install with: brew install ffmpeg"
    Run.stop (.exit 1)
  else
    let (script, t, library) ← buildTimeline world verbose e
    let (folder, _) ← writeEpisode e script t
    let mix ← Run.ofExcept (Preview.render library t Preview.fadeMs)
    let slug := Slug.ofPath e.file
    let path ← Run.onDesk
      (publish mix folder slug t world.now (Path.absolute world.folder e.file))
    printSummary slug t
    Run.print ("Done: " ++ path)

/-- Ends a run that has not come to a command. -/
def runStop : Stop → Run Unit
  | .help text => do
    modify fun s => { s with output := s.output ++ text }
    Run.stop (.exit 0)
  | .version => do
    modify fun s => { s with output := s.output ++ versionText }
    Run.stop (.exit 0)
  | .refused program usage problem => do
    modify fun s =>
      { s with errors := s.errors ++ usage ++ program ++ ": error: " ++ problem ++ "\n" }
    Run.stop (.exit 2)

def runRequest [Sound.Kit] (world : World) (verbose : Bool) : Request → Run Unit
  | .help => modify fun s => { s with output := s.output ++ topGrammar.help }
  | .parse file => runParse file
  | .manifest assets => runManifest world assets
  | .timeline e => runTimeline world verbose e
  | .render e => runRender world verbose e

/-- How a command line ends in a world, and what it leaves behind. -/
def run [Sound.Kit] (world : World) (words : List String) : Ending × Session :=
  let steps : Run Unit :=
    match requestOfLine words with
    | .ok (request, verbose) => runRequest world verbose request
    | .error s => runStop s
  match (StateT.run (m := Id) (ExceptT.run steps) { desk := { files := world.files } } :
      Except Ending Unit × Session) with
  | (.ok _, s) => (.exit 0, s)
  | (.error e, s) => (e, s)

end Radioplay.Command
