import Radioplay.Text.Blank

/-! Tags in square brackets inside a line of dialogue: where they are, and what each one means. A
tag is a bracket pair around at least one character; a bracket that opens no tag is plain text. -/

namespace Radioplay

open Text

inductive Tag where
  /-- The speaker's state from here on. -/
  | state (name : String)
  | shot (name : String)
  | pause
  /-- A key other than `shot`; it has no effect. -/
  | unknown (content : String)
  deriving DecidableEq, Repr, Inhabited

namespace Tag

/-- The value that fills a line, which one newline may end. -/
def lineValue? (s : List Char) : Option (List Char) :=
  let v := s.takeWhile (· != '\n')
  let after := s.dropWhile (· != '\n')
  if v.isEmpty then none else if after = [] ∨ after = ['\n'] then some v else none

/-- The value after the first `n` characters, or after fewer where that leaves none. -/
def valueAfter? (s : List Char) : Nat → Option (List Char)
  | 0 => lineValue? s
  | n + 1 =>
    match lineValue? (s.drop (n + 1)) with
    | some v => some v
    | none => valueAfter? s n

/-- The key and the value of a tag written `key: value`; the value starts after as much white space
as leaves it a character. -/
def keyed? (s : List Char) : Option (List Char × List Char) :=
  let key := s.takeWhile isWordChar
  match key, s.dropWhile isWordChar with
  | _ :: _, ':' :: rest =>
    (valueAfter? rest (rest.takeWhile isSpace).length).map fun v => (key, v)
  | _, _ => none

/-- The meaning of the text between two brackets. -/
def classify (content : List Char) : Tag :=
  if content = ['.', '.', '.'] then .pause
  else
    match keyed? content with
    | some (key, v) =>
      if key = ['s', 'h', 'o', 't'] then .shot (String.ofList v)
      else .unknown (String.ofList content)
    | none => .state (String.ofList content)

end Tag

/-- A line of dialogue taken apart: plain text, then tags with the plain text after each. -/
structure Segments where
  head : List Char
  tail : List (List Char × List Char)
  deriving DecidableEq, Repr

namespace Segments

/-- Finds the tags from the left. A bracket pair with nothing in it is plain text, and so is all
that follows a bracket that nothing closes. -/
def ofText (s : List Char) : Segments :=
  let plain := s.takeWhile (· != '[')
  match _h : s.dropWhile (· != '[') with
  | [] => ⟨plain, []⟩
  | _ :: inner =>
    let content := inner.takeWhile (· != ']')
    match _h' : inner.dropWhile (· != ']') with
    | [] => ⟨s, []⟩
    | _ :: after =>
      let r := ofText after
      if content.isEmpty then ⟨plain ++ '[' :: ']' :: r.head, r.tail⟩
      else ⟨plain, (content, r.head) :: r.tail⟩
termination_by s.length
decreasing_by
  have h1 := (List.dropWhile_suffix (l := s) (· != '[')).length_le
  have h2 := (List.dropWhile_suffix (l := inner) (· != ']')).length_le
  simp only [_h, _h', List.length_cons] at h1 h2
  omega

/-- The text that was taken apart. -/
def toText (g : Segments) : List Char :=
  g.head ++ g.tail.flatMap fun (t, p) => '[' :: (t ++ ']' :: p)

end Segments

end Radioplay
