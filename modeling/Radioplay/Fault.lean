import Radioplay.Text.Quoted

/-! The ways in which reading, timing, loading and mixing an episode can fail. Each fault names its
cause; `Fault.message` is the one place that words it. -/

namespace Radioplay

/-- What a reader of JSON text can find wrong with it. -/
inductive JsonProblem where
  | expectingValue
  | expectingName
  | expectingColon
  | expectingComma
  | extraData
  | unterminatedString
  | controlCharacter
  | badEscape
  | badUnicodeEscape
  | byteOrderMark
  deriving DecidableEq, Repr

def JsonProblem.message : JsonProblem → String
  | .expectingValue => "Expecting value"
  | .expectingName => "Expecting property name enclosed in double quotes"
  | .expectingColon => "Expecting ':' delimiter"
  | .expectingComma => "Expecting ',' delimiter"
  | .extraData => "Extra data"
  | .unterminatedString => "Unterminated string starting at"
  | .controlCharacter => "Invalid control character at"
  | .badEscape => "Invalid \\escape"
  | .badUnicodeEscape => "Invalid \\uXXXX escape"
  | .byteOrderMark => "Unexpected UTF-8 BOM (decode using utf-8-sig)"

/-- What a decoder of UTF-8 can find wrong with a run of bytes. -/
inductive Utf8Problem where
  | startByte
  | continuationByte
  | endOfData
  deriving DecidableEq, Repr

def Utf8Problem.message : Utf8Problem → String
  | .startByte => "invalid start byte"
  | .continuationByte => "invalid continuation byte"
  | .endOfData => "unexpected end of data"

/-- What the file tree refuses. -/
inductive FileProblem where
  | missing
  | notFolder
  | isFolder
  | alreadyThere
  | nameTooLong
  deriving DecidableEq, Repr

def FileProblem.message : FileProblem → String
  | .missing => "[Errno 2] No such file or directory"
  | .notFolder => "[Errno 20] Not a directory"
  | .isFolder => "[Errno 21] Is a directory"
  | .alreadyThere => "[Errno 17] File exists"
  | .nameTooLong => "[Errno 36] File name too long"

inductive Fault where
  /-- A clip that cannot be read or decoded. -/
  | clipUnreadable (path : String)
  /-- A clip asked for before it was loaded. -/
  | clipNotLoaded (path : String)
  /-- The analysis window holds no sample; both numbers are given as text. -/
  | windowTooSmall (windowMs rate : String)
  | configNotObject (path : String)
  | configMissing (path : String)
  | badJson (problem : JsonProblem) (line column position : Nat)
  /-- The bytes from `first` to `last` are no UTF-8; `byte` is the first of them. -/
  | badUtf8 (problem : Utf8Problem) (byte first last : Nat)
  | file (problem : FileProblem) (path : String)
  /-- A path with a null character in it. -/
  | badPath
  /-- A numeral with more digits than are read. -/
  | numeralTooLong (digits : Nat)
  /-- A number with more digits than are written. -/
  | numberTooLong
  /-- A value of a kind that the operation does not take. -/
  | wrongKind
  /-- A member asked of a value that has no members. -/
  | noMembers
  /-- An index that an object does not have. -/
  | noSuchKey
  /-- An index past the end of a sequence. -/
  | noSuchItem
  /-- A number compared with a text. -/
  | notComparable
  | overflow
  /-- More memory asked for than there is. -/
  | outOfMemory
  /-- Arrays and objects inside each other, too many to be read. -/
  | nestedTooDeep
  | divisionByZero
  /-- A number that is no number where a whole one is needed. -/
  | notANumber
  /-- Samples that do not fill whole frames, or channels that cannot be matched. -/
  | badShape
  /-- Samples too wide for any arithmetic on them. -/
  | badWidth
  /-- A cut reaching so far outside a clip that silence cannot stand in. -/
  | tooMuchSilence
  /-- A computation that its caller says failed. -/
  | failed
  deriving DecidableEq, Repr

/-- The wording of a fault; empty where it has none of its own. -/
def Fault.message : Fault → String
  | .clipUnreadable path => "Failed to load audio: " ++ path
  | .clipNotLoaded path => "Audio not loaded: " ++ path
  | .windowTooSmall windowMs rate =>
    "Energy window too small: " ++ windowMs ++ "ms at " ++ rate ++ "Hz"
  | .configNotObject path => "Config must be a JSON object: " ++ path
  | .configMissing path => path
  | .badJson problem line column position =>
    problem.message ++ ": line " ++ toString line ++ " column " ++ toString column ++ " (char " ++
      toString position ++ ")"
  | .badUtf8 problem byte first last =>
    "'utf-8' codec can't decode " ++
      (if first = last then
        "byte 0x" ++ Text.hexByte byte ++ " in position " ++ toString first
      else "bytes in position " ++ toString first ++ "-" ++ toString last) ++
      ": " ++ problem.message
  | .file problem path => problem.message ++ ": " ++ Text.quoted path
  | .badPath => "embedded null byte"
  | .numeralTooLong digits =>
    "Exceeds the limit (4300 digits) for integer string conversion: value has " ++
      toString digits ++ " digits; use sys.set_int_max_str_digits() to increase the limit"
  | .numberTooLong =>
    "Exceeds the limit (4300 digits) for integer string conversion; " ++
      "use sys.set_int_max_str_digits() to increase the limit"
  | _ => ""

/-- Faults that come from the file system. -/
def Fault.isFileFault : Fault → Bool
  | .file _ _ | .configMissing _ => true
  | _ => false

/-- Faults of a value that has the right kind and the wrong content. -/
def Fault.isContentFault : Fault → Bool
  | .windowTooSmall _ _ | .configNotObject _ | .badJson _ _ _ _ | .badUtf8 _ _ _ _
  | .badPath | .numeralTooLong _ | .numberTooLong | .notANumber | .badShape => true
  | _ => false

/-- Faults of a clip. -/
def Fault.isClipFault : Fault → Bool
  | .clipUnreadable _ | .clipNotLoaded _ => true
  | _ => false

end Radioplay
