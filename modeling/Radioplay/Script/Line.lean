import Radioplay.Text.Blank

/-! The shapes of a script's lines, tried in order; the first that fits decides. Only ASCII counts
in a shape. -/

namespace Radioplay

open Text

inductive Line where
  | blank
  | comment
  | seed (digits : List Char)
  | location (name : List Char)
  | dialogue (character text : List Char)
  /-- A line of no shape; it is dropped. -/
  | other
  deriving DecidableEq, Repr, Inhabited

namespace Line

/-- `seed: ` and digits. -/
def seed? : List Char → Option (List Char)
  | 's' :: 'e' :: 'e' :: 'd' :: ':' :: rest =>
    let digits := rest.dropWhile isSpace
    if !digits.isEmpty && digits.all Char.isDigit then some digits else none
  | _ => none

def isLocationChar (c : Char) : Bool := isWordChar c || c == '-'

/-- `@` and a name. -/
def location? : List Char → Option (List Char)
  | '@' :: name => if !name.isEmpty && name.all isLocationChar then some name else none
  | _ => none

/-- A character's name, a colon and what is said. -/
def dialogue? (s : List Char) : Option (List Char × List Char) :=
  let character := s.takeWhile isWordChar
  match character, s.dropWhile isWordChar with
  | _ :: _, ':' :: rest => some (character, rest.dropWhile isSpace)
  | _, _ => none

/-- The shape of a line that has been cleaned. -/
def classify (s : List Char) : Line :=
  if s.isEmpty then .blank
  else if s.head? = some '#' then .comment
  else
    match seed? s with
    | some digits => .seed digits
    | none =>
      match location? s with
      | some name => .location name
      | none =>
        match dialogue? s with
        | some (character, text) => .dialogue character text
        | none => .other

/-- The shape of a line as it stands in a script. -/
def ofRaw (s : List Char) : Line := classify (cleaned s)

end Line

end Radioplay
