import Radioplay.Value

/-! Values as JSON text, two blanks to a level, all characters outside ASCII escaped. A value is
written piece by piece; a whole number too long to write stands as a fault in the place of its
piece, and what comes before it has been written. -/

namespace Radioplay.Json

open Text

def unicodeEscape (n : Nat) : List Char := '\\' :: 'u' :: hex 4 n

/-- The escapes of the two halves that stand for a character past U+FFFF. -/
def pairEscape (n : Nat) : List Char :=
  unicodeEscape (0xD800 + (n - 0x10000) / 1024) ++ unicodeEscape (0xDC00 + (n - 0x10000) % 1024)

def escapeChar (c : Char) : List Char :=
  if c = '"' then ['\\', '"']
  else if c = '\\' then ['\\', '\\']
  else if c = '\n' then ['\\', 'n']
  else if c = '\r' then ['\\', 'r']
  else if c = '\t' then ['\\', 't']
  else if c = '\x08' then ['\\', 'b']
  else if c = '\x0c' then ['\\', 'f']
  else if 0x20 ≤ c.toNat ∧ c.toNat < 0x7F then [c]
  else if c.toNat < 0x10000 then unicodeEscape c.toNat
  else pairEscape c.toNat

def stringText (s : String) : List Char := '"' :: (s.toList.flatMap escapeChar ++ ['"'])

def newline (level : Nat) : List Char := '\n' :: List.replicate (2 * level) ' '

def intText (n : Int) : Except Fault (List Char) :=
  if exceedsDigitLimit n then .error .numberTooLong else .ok (toString n).toList

def floatText (x : Float) : List Char := (Decimal.text "Infinity" "NaN" x).toList

/-- A stretch of text, or the fault that ends the text. -/
abbrev Piece := Except Fault (List Char)

/-- A piece of text after the text `lead`. -/
def Piece.after (lead : List Char) (p : Piece) : Piece := p.map (lead ++ ·)

mutual

/-- The pieces of a value at a level; `lead` goes into the first of them. -/
def pieces (level : Nat) (lead : List Char) : Value → List Piece
  | .null => [.ok (lead ++ "null".toList)]
  | .bool b => [.ok (lead ++ (if b then "true" else "false").toList)]
  | .int n => [Piece.after lead (intText n)]
  | .float x => [.ok (lead ++ floatText x)]
  | .str s => [.ok (lead ++ stringText s)]
  | .arr [] => [.ok (lead ++ ['[', ']'])]
  | .arr (v :: vs) =>
    .ok lead :: (pieces (level + 1) ('[' :: newline (level + 1)) v ++ itemPieces level vs)
  | .obj [] => [.ok (lead ++ ['\x7b', '\x7d'])]
  | .obj ((k, v) :: fields) =>
    .ok (lead ++ '\x7b' :: newline (level + 1) ++ stringText k ++ [':', ' ']) ::
      (pieces (level + 1) [] v ++ fieldPieces level fields)

/-- The pieces of the items that follow in an array, and its end. -/
def itemPieces (level : Nat) : List Value → List Piece
  | [] => [.ok (newline level ++ [']'])]
  | v :: vs => pieces (level + 1) (',' :: newline (level + 1)) v ++ itemPieces level vs

/-- The pieces of the fields that follow in an object, and its end. -/
def fieldPieces (level : Nat) : List (String × Value) → List Piece
  | [] => [.ok (newline level ++ ['\x7d'])]
  | (k, v) :: fields =>
    .ok (',' :: newline (level + 1) ++ stringText k ++ [':', ' ']) ::
      (pieces (level + 1) [] v ++ fieldPieces level fields)

end

/-- The text written before the first fault, and that fault. -/
def written : List Piece → List Char × Option Fault
  | [] => ([], none)
  | .error fault :: _ => ([], some fault)
  | .ok text :: rest =>
    let (tail, fault) := written rest
    (text ++ tail, fault)

/-- The text of a value as far as it can be written, and what stopped it. -/
def write (v : Value) : List Char × Option Fault := written (pieces 0 [] v)

/-- The whole text of a value. -/
def print (v : Value) : Except Fault (List Char) :=
  match write v with
  | (text, none) => .ok text
  | (_, some fault) => .error fault

end Radioplay.Json
