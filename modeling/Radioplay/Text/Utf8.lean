import Radioplay.Fault

/-! Texts as bytes. The decoder takes the well-formed sequences of UTF-8 and no others, and says
where and how a run of bytes goes wrong. A text read from a file has its line ends made newlines; a
script may open with a byte-order mark. -/

namespace Radioplay.Text

def encodeChar (c : Char) : List UInt8 :=
  let n := c.toNat
  if n < 0x80 then [n.toUInt8]
  else if n < 0x800 then [(0xC0 + n / 64).toUInt8, (0x80 + n % 64).toUInt8]
  else if n < 0x10000 then
    [(0xE0 + n / 4096).toUInt8, (0x80 + n / 64 % 64).toUInt8, (0x80 + n % 64).toUInt8]
  else
    [(0xF0 + n / 262144).toUInt8, (0x80 + n / 4096 % 64).toUInt8, (0x80 + n / 64 % 64).toUInt8,
      (0x80 + n % 64).toUInt8]

def encode (s : List Char) : List UInt8 := s.flatMap encodeChar

def isContinuation (b : UInt8) : Bool := 0x80 ≤ b.toNat && b.toNat < 0xC0

/-- May `second` follow the leading byte `lead`? Some leads narrow the range, against overlong
forms, surrogates and values past U+10FFFF. -/
def fitsLead (lead second : UInt8) : Bool :=
  isContinuation second &&
    !((lead.toNat == 0xE0 && second.toNat < 0xA0) || (lead.toNat == 0xED && 0xA0 ≤ second.toNat) ||
      (lead.toNat == 0xF0 && second.toNat < 0x90) || (lead.toNat == 0xF4 && 0x90 ≤ second.toNat))

/-- How many bytes follow a leading byte; none for a byte that cannot lead. -/
def followers (lead : UInt8) : Option Nat :=
  let n := lead.toNat
  if n < 0x80 then some 0
  else if n < 0xC2 then none
  else if n < 0xE0 then some 1
  else if n < 0xF0 then some 2
  else if n < 0xF5 then some 3
  else none

/-- What is wrong with the sequence that `lead` opens, if anything, and how many of its bytes are
blamed. A byte that does not continue is not blamed itself. -/
def sequenceProblem (lead : UInt8) (rest : List UInt8) : Option (Utf8Problem × Nat) :=
  match followers lead with
  | none => some (.startByte, 1)
  | some 0 => none
  | some count =>
    let got := rest.take count
    match got with
    | [] => some (.endOfData, 1)
    | second :: more =>
      if !fitsLead lead second then some (.continuationByte, 1)
      else
        let good := (more.takeWhile isContinuation).length
        if good < more.length then some (.continuationByte, 2 + good)
        else if got.length < count then some (.endOfData, 1 + got.length)
        else none

/-- The character of a sound sequence. -/
def sequenceChar (lead : UInt8) (tail : List UInt8) : Char :=
  let n := lead.toNat
  let top :=
    match tail.length with
    | 0 => n
    | 1 => n - 0xC0
    | 2 => n - 0xE0
    | _ => n - 0xF0
  Char.ofNat (tail.foldl (fun v b => v * 64 + (b.toNat - 0x80)) top)

/-- Decodes from byte number `position` on, after the characters in `done`, last first. -/
def decodeFrom (position : Nat) (done : List Char) : List UInt8 → Except Fault (List Char)
  | [] => .ok done.reverse
  | lead :: rest =>
    match sequenceProblem lead rest with
    | some (problem, count) =>
      .error (.badUtf8 problem lead.toNat position (position + count - 1))
    | none =>
      let count := (followers lead).getD 0
      decodeFrom (position + 1 + count) (sequenceChar lead (rest.take count) :: done)
        (rest.drop count)
termination_by bytes => bytes.length
decreasing_by simp only [List.length_drop, List.length_cons]; omega

def decode (bytes : List UInt8) : Except Fault (List Char) := decodeFrom 0 [] bytes

/-- Every line end becomes a newline: a carriage return stands for one, alone or before one. -/
def newlines (s : List Char) : List Char :=
  (s.foldr
    (fun c (out, beforeNewline) =>
      if c = '\r' then (if beforeNewline then (out, false) else ('\n' :: out, false))
      else (c :: out, c = '\n'))
    (([] : List Char), false)).1

/-- The text of a file. -/
def ofFile (bytes : List UInt8) : Except Fault (List Char) := (decode bytes).map newlines

/-- The bytes of a byte-order mark. -/
def markBytes : List UInt8 := [0xEF, 0xBB, 0xBF]

/-- The text of a script file: an opening byte-order mark is dropped, and so are its first bytes
where they are all there is. -/
def ofScriptFile (bytes : List UInt8) : Except Fault (List Char) :=
  if bytes.isPrefixOf markBytes then .ok []
  else if markBytes.isPrefixOf bytes then ofFile (bytes.drop 3)
  else ofFile bytes

end Radioplay.Text
