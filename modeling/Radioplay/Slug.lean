import Radioplay.Path
import Radioplay.Text.Blank

/-! Slugs: the name of an episode's output folder, made from the script's file name. -/

namespace Radioplay.Slug

/-- Each run of characters other than letters and digits of ASCII becomes one underscore. -/
def squeeze (s : List Char) : List Char :=
  s.foldr (fun c out =>
    if c.isAlphanum then c :: out else if out.head? = some '_' then out else '_' :: out) []

/-- The slug of a file's stem. -/
def ofStem (s : List Char) : List Char :=
  (Text.stripEnds (· == '_') (squeeze s)).map Char.toLower

def ofPath (path : String) : String :=
  String.ofList (ofStem (Path.stem (Path.lastPart path.toList)))

end Radioplay.Slug
