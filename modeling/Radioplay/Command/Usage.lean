import Radioplay.Command.Arguments

/-! The grammars of the command line and their texts. -/

namespace Radioplay.Command

def program : String := "fsl-previewer"

def versionText : String := program ++ " 0.1.0\n"

def commandNames : List String := ["parse", "manifest", "timeline", "render"]

def helpSwitch : Switch := ⟨["-h", "--help"], .help⟩

def topUsage : String :=
  "usage: fsl-previewer [-h] [--version] [-v]\n" ++
  "                     \x7bparse,manifest,timeline,render\x7d ...\n"

def topGrammar : Grammar where
  program := program
  usage := topUsage
  help := topUsage ++
    "\nFSL Previewer: turn dialogue scripts into timed voice-clip timelines\n" ++
    "\npositional arguments:\n" ++
    "  \x7bparse,manifest,timeline,render\x7d\n" ++
    "                        Available commands\n" ++
    "    parse               Print the parsed script as JSON\n" ++
    "    manifest            Scan assets and write manifest.json\n" ++
    "    timeline            Generate the episode timeline\n" ++
    "    render              Render the episode to an MP3 preview\n" ++
    "\noptions:\n" ++
    "  -h, --help            show this help message and exit\n" ++
    "  --version             show program's version number and exit\n" ++
    "  -v, --verbose         Debug logging\n"
  switches := [helpSwitch, ⟨["--version"], .version⟩, ⟨["-v", "--verbose"], .verbose⟩]
  operand := "command"
  arity := .oneAndRest

def parseUsage : String := "usage: fsl-previewer parse [-h] file\n"

def parseGrammar : Grammar where
  program := program ++ " parse"
  usage := parseUsage
  help := parseUsage ++
    "\npositional arguments:\n" ++
    "  file        Path to the FSL script\n" ++
    "\noptions:\n" ++
    "  -h, --help  show this help message and exit\n"
  switches := [helpSwitch]
  operand := "file"
  arity := .one

def manifestUsage : String := "usage: fsl-previewer manifest [-h] [assets_dir]\n"

def manifestGrammar : Grammar where
  program := program ++ " manifest"
  usage := manifestUsage
  help := manifestUsage ++
    "\npositional arguments:\n" ++
    "  assets_dir  Assets folder\n" ++
    "\noptions:\n" ++
    "  -h, --help  show this help message and exit\n"
  switches := [helpSwitch]
  operand := "assets_dir"
  arity := .atMostOne

/-- The usage of a command on an episode; later lines are set under the first. -/
def episodeUsage (command : String) : String :=
  let lead := "usage: fsl-previewer " ++ command ++ " "
  let margin := String.ofList (List.replicate lead.length ' ')
  lead ++ "[-h] [--assets ASSETS] [--config CONFIG]\n" ++ margin ++ "[--output OUTPUT]\n" ++
    margin ++ "file\n"

def episodeGrammar (command : String) : Grammar where
  program := program ++ " " ++ command
  usage := episodeUsage command
  help := episodeUsage command ++
    "\npositional arguments:\n" ++
    "  file             Path to the FSL script\n" ++
    "\noptions:\n" ++
    "  -h, --help       show this help message and exit\n" ++
    "  --assets ASSETS  Assets folder (default: assets)\n" ++
    "  --config CONFIG  JSON file with timing overrides\n" ++
    "  --output OUTPUT  Output folder (default: output)\n"
  switches :=
    [helpSwitch, ⟨["--assets"], .keep "assets"⟩, ⟨["--config"], .keep "config"⟩,
      ⟨["--output"], .keep "output"⟩]
  operand := "file"
  arity := .one

/-- The files and folders that a command on an episode is given. Where two dashes stand for a
folder, there is none. -/
structure Episode where
  file : String
  assets : Option String
  config : Option String
  output : Option String
  deriving DecidableEq, Repr, Inhabited

/-- What a command line asks for. -/
inductive Request where
  /-- No command: the help is shown. -/
  | help
  | parse (file : String)
  | manifest (assets : String)
  | timeline (episode : Episode)
  | render (episode : Episode)
  deriving DecidableEq, Repr, Inhabited

/-- The paths that a request reads or writes at. -/
def Request.paths : Request → List String
  | .help => []
  | .parse file => [file]
  | .manifest assets => [assets]
  | .timeline e | .render e => e.file :: (e.assets.toList ++ e.output.toList ++ e.config.toList)

open Grammar

def episodeOf (t : Taken) : Episode :=
  { file := (argumentOf (t.operand.getD [])).getD ""
    assets := (t.kept.lookup "assets").getD (some "assets")
    config := (t.kept.lookup "config").join
    output := (t.kept.lookup "output").getD (some "output") }

/-- The request of a command's words, and the words that did not fit. -/
def requestOf (command : String) (words : List String) : Except Stop (Request × List String) :=
  if command = "parse" then do
    let t ← parseGrammar.take words
    return (.parse (episodeOf t).file, t.aside)
  else if command = "manifest" then do
    let t ← manifestGrammar.take words
    return (.manifest ((argumentOf (t.operand.getD [])).getD "assets"), t.aside)
  else if command = "timeline" then do
    let t ← (episodeGrammar command).take words
    return (.timeline (episodeOf t), t.aside)
  else if command = "render" then do
    let t ← (episodeGrammar command).take words
    return (.render (episodeOf t), t.aside)
  else
    topGrammar.refuse ("argument command: invalid choice: " ++ Text.quoted command ++
      " (choose from " ++ String.intercalate ", " (commandNames.map Text.quoted) ++ ")")

/-- The request of a whole command line, and whether it asks for a full log. -/
def requestOfLine (words : List String) : Except Stop (Request × Bool) := do
  let t ← topGrammar.take words
  let (request, aside) ←
    match t.operand with
    | some (command :: rest) => requestOf command rest
    | _ => pure (.help, [])
  let extra := t.aside ++ aside
  if extra.isEmpty then return (request, t.verbose)
  else topGrammar.refuse ("unrecognized arguments: " ++ String.intercalate " " extra)

end Radioplay.Command
