import Radioplay.Artifact
import Radioplay.Preview

/-! Exported previews: the mix, given out for encoding, and a file that tells what it was made
from. -/

namespace Radioplay.Preview

open Sound

def version : String := "0.1.0"

/-- A mix to be encoded. -/
structure Encoding where
  path : String
  format : String
  bitrate : String
  tags : List (String × String)
  audio : Clip
  deriving Inhabited

/-- Files and the mixes given out so far. -/
structure Desk where
  files : FileTree
  encodings : List Encoding := []
  deriving Inhabited

/-- A step on the files alone. -/
def onFiles {α : Type} (a : Act FileTree α) : Act Desk α := do
  let desk ← get
  let (outcome, files) := a.perform desk.files
  set { desk with files := files }
  Act.ofExcept outcome

/-- The order of the code points of names; a name left out has no place in an order. -/
def insertName (name : String) : List String → List String
  | [] => [name]
  | n :: rest =>
    if name < n then name :: n :: rest
    else if name = n then n :: rest
    else n :: insertName name rest

/-- The characters of lines of dialogue, each once. -/
def characterNames (entries : List (Entry Number)) : List (Option String) :=
  (entries.filterMap fun e =>
    match e.event with
    | .text character _ _ => some character
    | _ => none).eraseDups

/-- Names in order; a name left out can only stand alone. -/
def characters (entries : List (Entry Number)) : Except Fault (List Value) :=
  match characterNames entries with
  | [none] => .ok [.null]
  | names =>
    if names.contains none then .error .wrongKind
    else .ok ((names.filterMap id).foldr insertName [] |>.map .str)

/-- The total in seconds. -/
def totalSeconds (t : Timeline Number) : Except Fault Number := Number.div t.total (.int 1000)

def roundedSeconds (t : Timeline Number) : Except Fault Value := do
  match ← totalSeconds t with
  | .float x => return .float (Decimal.roundTo 1 x)
  | .int n => return .int n

/-- What a preview was made from. -/
def report (t : Timeline Number) (now slug source : String) : Except Fault Value := do
  let characters ← characters t.entries
  let seconds ← roundedSeconds t
  return .obj
    [("project", .str slug), ("source", .str source), ("generated_at", .str now),
      ("previewer_version", .str version), ("seed", .int t.seed), ("characters", .arr characters),
      ("stats", .obj
        [("events", .int t.entries.length), ("lines", .int t.lines.length),
          ("captions_only", .int t.captionCount), ("duration_seconds", seconds)])]

/-- Gives a mix out and writes its report; the answer is the path of the encoded file. -/
def publish (mix : Clip) (folder slug : String) (t : Timeline Number) (now source : String) :
    Act Desk String := do
  onFiles (FileTree.ensureFolders folder)
  let path := Path.join folder [slug ++ ".mp3"]
  modify fun d =>
    { d with encodings := d.encodings ++ [⟨path, "mp3", "192k", [("title", slug)], mix⟩] }
  let report ← Act.ofExcept (report t now slug source)
  onFiles (Artifact.writeValue (Path.join folder ["output.json"]) report)
  return path

end Radioplay.Preview
