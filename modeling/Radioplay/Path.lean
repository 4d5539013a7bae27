/-! Paths as text: how components are joined, and how the last one and its extension are split
off. -/

namespace Radioplay.Path

/-- A path below another; a path from the root stands alone. -/
def under (base part : List Char) : List Char :=
  if part.head? = some '/' then part
  else if base.isEmpty || base.getLast? == some '/' then base ++ part
  else base ++ '/' :: part

def isRooted (path : String) : Bool := path.toList.head? == some '/'

/-- A path followed by further parts. -/
def join (base : String) (parts : List String) : String :=
  String.ofList (parts.foldl (fun path part => under path part.toList) base.toList)

/-- What follows the last slash. -/
def lastPart (path : List Char) : List Char :=
  (path.reverse.takeWhile (· != '/')).reverse

def baseName (path : String) : String := String.ofList (lastPart path.toList)

/-- What comes before the last slash, without slashes at its end unless it is nothing else. -/
def parent (path : String) : String :=
  let head := (path.toList.reverse.dropWhile (· != '/')).reverse
  if head.all (· == '/') then String.ofList head
  else String.ofList (head.reverse.dropWhile (· == '/')).reverse

/-- A path without the slashes at its end unless it is nothing else. -/
def trimmed (path : String) : String :=
  if path.toList.all (· == '/') then path
  else String.ofList (path.toList.reverse.dropWhile (· == '/')).reverse

/-- A file name without its extension, which dots at the front do not start. -/
def stem (name : List Char) : List Char :=
  match name.reverse.dropWhile (· != '.') with
  | [] => name
  | _ :: before => if before.all (· == '.') then name else before.reverse

/-- The pieces between slashes. -/
def components (path : String) : List String :=
  (path.toList.foldr
    (fun c parts =>
      if c = '/' then [] :: parts
      else
        match parts with
        | [] => [[c]]
        | p :: ps => (c :: p) :: ps)
    [[]]).map String.ofList

/-- Components without the empty ones and those for the folder itself, each component for the
parent folder taking back the one before it; at the root there is none to take back. -/
def settle (rooted : Bool) : (done : List String) → List String → List String
  | done, [] => done.reverse
  | done, c :: rest =>
    if c = "" ∨ c = "." then settle rooted done rest
    else if c = ".." then
      match done with
      | [] => settle rooted (if rooted then [] else [".."]) rest
      | d :: ds => if d = ".." then settle rooted (".." :: done) rest else settle rooted ds rest
    else settle rooted (c :: done) rest

/-- A path in its shortest form. -/
def normal (path : String) : String :=
  let slashes := (path.toList.takeWhile (· == '/')).length
  let lead := if slashes = 2 then "//" else if slashes = 0 then "" else "/"
  let body := lead ++ String.intercalate "/" (settle (slashes != 0) [] (components path))
  if body.isEmpty then "." else body

/-- A path from the root, given the current folder. -/
def absolute (current path : String) : String := normal (join current [path])

end Radioplay.Path
