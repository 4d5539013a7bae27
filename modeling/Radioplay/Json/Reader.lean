import Radioplay.Value
import Radioplay.Table
import Radioplay.Text.Blank

/-! JSON text as values. The reader works on the characters still to come; a problem carries how
many those are, which gives its place. Besides the standard's values it takes `NaN`, `Infinity` and
`-Infinity`; a field given twice keeps its first place and takes its last value. The escape of half
of a pair is taken without the other half too. It stands for no character then, and the reader is
given one to put in its place. -/

namespace Radioplay.Json

/-- What stops a reader, with the number of characters from there to the end. -/
inductive Stop where
  | problem (p : JsonProblem) (remaining : Nat)
  | tooLong (digits : Nat)
  | tooDeep
  deriving DecidableEq, Repr

/-- A reader takes characters off the front of a text. -/
abbrev Read (α : Type) := Except Stop (α × List Char)

def stop {α : Type} (p : JsonProblem) (rest : List Char) : Except Stop α :=
  .error (.problem p rest.length)

def isGap (c : Char) : Bool := c == ' ' || c == '\t' || c == '\n' || c == '\r'

def skipGap (s : List Char) : List Char := s.dropWhile isGap

def hexValue (c : Char) : Option Nat :=
  let n := c.toNat
  if 48 ≤ n ∧ n ≤ 57 then some (n - 48)
  else if 97 ≤ n ∧ n ≤ 102 then some (n - 87)
  else if 65 ≤ n ∧ n ≤ 70 then some (n - 55)
  else none

/-- The number written by four hexadecimal digits. -/
def fourHex : List Char → Option Nat
  | [a, b, c, d] => do
    return ((← hexValue a) * 16 + (← hexValue b)) * 256 + (← hexValue c) * 16 + (← hexValue d)
  | _ => none

/-- The character of an escape other than `\u`. -/
def shortEscape (c : Char) : Option Char :=
  if c = '"' ∨ c = '\\' ∨ c = '/' then some c
  else if c = 'b' then some '\x08'
  else if c = 'f' then some '\x0c'
  else if c = 'n' then some '\n'
  else if c = 'r' then some '\r'
  else if c = 't' then some '\t'
  else none

section

variable (half : Char)

/-- The character with a number; half of a pair is none, and has another in its place. -/
def unicodeChar (n : Nat) : Char := if 0xD800 ≤ n ∧ n < 0xE000 then half else Char.ofNat n

/-- What follows `\u`, where `u` is the rest of the text from the letter on: four digits that do
not end the text, and for a high half the low half's escape too where there is one. -/
def readUnicode (u : List Char) : Read Char :=
  let s := u.drop 1
  if (s.drop 4).isEmpty then stop .badUnicodeEscape u
  else
    match fourHex (s.take 4) with
    | none => stop .badUnicodeEscape u
    | some n =>
      let rest := s.drop 4
      if 0xD800 ≤ n ∧ n < 0xDC00 ∧ (rest.drop 6) ≠ [] ∧ rest.take 2 = ['\\', 'u'] then
        match fourHex ((rest.drop 2).take 4) with
        | none => stop .badUnicodeEscape (rest.drop 1)
        | some m =>
          if 0xDC00 ≤ m ∧ m < 0xE000 then
            .ok (Char.ofNat (0x10000 + (n - 0xD800) * 1024 + (m - 0xDC00)), rest.drop 6)
          else .ok (unicodeChar half n, rest)
      else .ok (unicodeChar half n, rest)

/-- The rest of a string after its opening quote; `opening` is the text from that quote on and
`done` holds the characters read, last first. -/
def readStringFrom (opening : List Char) :
    (fuel : Nat) → (done : List Char) → List Char → Read String
  | 0, _, _ => stop .unterminatedString opening
  | fuel + 1, done, s =>
    match s with
    | [] => stop .unterminatedString opening
    | '"' :: rest => .ok (String.ofList done.reverse, rest)
    | '\\' :: rest =>
      match rest with
      | [] => stop .unterminatedString opening
      | 'u' :: _ =>
        match readUnicode half rest with
        | .ok (c, rest) => readStringFrom opening fuel (c :: done) rest
        | .error e => .error e
      | c :: rest =>
        match shortEscape c with
        | some c => readStringFrom opening fuel (c :: done) rest
        | none => stop .badEscape s
    | c :: rest =>
      if c.toNat < 0x20 then stop .controlCharacter s
      else readStringFrom opening fuel (c :: done) rest

/-- The string that `s` opens with. -/
def readString (s : List Char) : Read String := readStringFrom half s s.length [] (s.drop 1)

end

def digitsValue (ds : List Char) : Nat := ds.foldl (fun n c => n * 10 + (c.toNat - 48)) 0

/-- The fraction digits after a point, if the text goes on with them. -/
def fractionDigits : List Char → Option (List Char × List Char)
  | '.' :: d :: rest =>
    if d.isDigit then some ((d :: rest).takeWhile Char.isDigit, rest.dropWhile Char.isDigit)
    else none
  | _ => none

/-- The exponent after its letter, if the text goes on with one. -/
def exponent : List Char → Option (Int × List Char)
  | c :: rest =>
    if c = 'e' ∨ c = 'E' then
      let (negative, s) :=
        match rest with
        | '-' :: s => (true, s)
        | '+' :: s => (false, s)
        | s => (false, s)
      let ds := s.takeWhile Char.isDigit
      if ds.isEmpty then none
      else
        let n : Int := digitsValue ds
        some (if negative then -n else n, s.dropWhile Char.isDigit)
    else none
  | [] => none

/-- The digits before a point that a text opens with; a zero at the front stands alone. -/
def wholeDigits : List Char → List Char
  | '0' :: _ => ['0']
  | s => s.takeWhile Char.isDigit

/-- The number that `s` opens with; it is whole unless it has a fraction or an exponent. -/
def readNumber (s : List Char) : Read Value :=
  let negative := s.head? == some '-'
  let body := if negative then s.drop 1 else s
  let whole := wholeDigits body
  if whole.isEmpty then stop .expectingValue s
  else
    let rest := body.drop whole.length
    let (fraction, rest, hasFraction) :=
      match fractionDigits rest with
      | some (ds, rest) => (ds, rest, true)
      | none => ([], rest, false)
    let (e, rest, hasExponent) :=
      match exponent rest with
      | some (e, rest) => (e, rest, true)
      | none => (0, rest, false)
    if hasFraction || hasExponent then
      .ok (.float (Decimal.ofScientific negative (digitsValue (whole ++ fraction))
        (e - fraction.length)), rest)
    else if digitLimit < whole.length then .error (.tooLong whole.length)
    else
      let n : Int := digitsValue whole
      .ok (.int (if negative then -n else n), rest)

/-- The values that are written as words. -/
def words : List (List Char × Value) :=
  [("null".toList, .null), ("true".toList, .bool true), ("false".toList, .bool false),
    ("NaN".toList, .float (0.0 / 0.0)), ("Infinity".toList, .float (Binary64.infinity false)),
    ("-Infinity".toList, .float (Binary64.infinity true))]

section

variable (half : Char)

/-- A field's name, its colon and the gap after it. -/
def readName (s : List Char) : Read String :=
  match s with
  | '"' :: _ =>
    match readString half s with
    | .ok (k, rest) =>
      match skipGap rest with
      | ':' :: rest => .ok (k, skipGap rest)
      | rest => stop .expectingColon rest
    | .error e => .error e
  | _ => stop .expectingName s

/-- How many arrays and objects may be inside each other. -/
def depthLimit : Nat := 985

mutual

/-- The value that `s` opens with, with `room` arrays and objects at most inside each other. -/
def readValue : (fuel room : Nat) → List Char → Read Value
  | 0, _, s => stop .expectingValue s
  | fuel + 1, room, s =>
    match s with
    | '"' :: _ => (readString half s).map fun (t, rest) => (.str t, rest)
    | '[' :: rest =>
      match room, skipGap rest with
      | 0, _ => .error .tooDeep
      | _, ']' :: rest => .ok (.arr [], rest)
      | room + 1, rest => readItems fuel room [] rest
    | '\x7b' :: rest =>
      match room, skipGap rest with
      | 0, _ => .error .tooDeep
      | _, '\x7d' :: rest => .ok (.obj [], rest)
      | room + 1, rest => readFields fuel room [] rest
    | _ =>
      match words.find? fun w => w.1.isPrefixOf s with
      | some (w, v) => .ok (v, s.drop w.length)
      | none => readNumber s

/-- The items of an array up to its end, after those in `done`, last first. -/
def readItems : (fuel room : Nat) → (done : List Value) → List Char → Read Value
  | 0, _, _, s => stop .expectingValue s
  | fuel + 1, room, done, s =>
    match readValue fuel room s with
    | .error e => .error e
    | .ok (v, rest) =>
      match skipGap rest with
      | ']' :: rest => .ok (.arr (v :: done).reverse, rest)
      | ',' :: rest => readItems fuel room (v :: done) (skipGap rest)
      | rest => stop .expectingComma rest

/-- The fields of an object up to its end, after those in `done`. -/
def readFields : (fuel room : Nat) → (done : List (String × Value)) → List Char → Read Value
  | 0, _, _, s => stop .expectingName s
  | fuel + 1, room, done, s =>
    match readName half s with
    | .error e => .error e
    | .ok (k, rest) =>
      match readValue fuel room rest with
      | .error e => .error e
      | .ok (v, rest) =>
        match skipGap rest with
        | '\x7d' :: rest => .ok (.obj (Table.put k v done), rest)
        | ',' :: rest => readFields fuel room (Table.put k v done) (skipGap rest)
        | rest => stop .expectingComma rest

end

/-- Fuel that a text cannot use up: an opening bracket takes two steps, and no other character takes
more. -/
def readerFuel (s : List Char) : Nat := 2 * s.length + 2

/-- One value with nothing but gaps around it. -/
def readWhole (s : List Char) : Except Stop Value :=
  if s.head? = some Text.byteOrderMark then stop .byteOrderMark s
  else
    match readValue half (readerFuel s) depthLimit (skipGap s) with
    | .error e => .error e
    | .ok (v, rest) =>
      match skipGap rest with
      | [] => .ok v
      | rest => stop .extraData rest

end

/-- The fault at a place in a text, with its line and column, both from one. -/
def faultAt (s : List Char) (p : JsonProblem) (position : Nat) : Fault :=
  let before := s.take position
  .badJson p (before.count '\n' + 1) ((before.reverse.takeWhile (· != '\n')).length + 1) position

def Stop.fault (s : List Char) : Stop → Fault
  | .problem p remaining => faultAt s p (s.length - remaining)
  | .tooLong digits => .numeralTooLong digits
  | .tooDeep => .nestedTooDeep

/-- The value that a text stands for, given what half of a pair is read as. -/
def parseWith (half : Char) (s : List Char) : Except Fault Value :=
  match readWhole half s with
  | .ok v => .ok v
  | .error e => .error (e.fault s)

/-- The value that a text stands for, with the replacement character for half of a pair. -/
def parse (s : List Char) : Except Fault Value := parseWith '\uFFFD' s

/-- Does the value that a text stands for, or the fault in it, not depend on what half of a pair is
read as? Then no string of it holds half of a pair alone. -/
def IsHalfless (s : List Char) : Prop := ∀ half, parseWith half s = parse s

end Radioplay.Json
