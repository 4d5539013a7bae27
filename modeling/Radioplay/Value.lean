import Radioplay.Number.Decimal
import Radioplay.Fault

/-! Loosely typed data, as settings, manifests and artifacts hold it, and the arithmetic that
settings take part in. Whole numbers are unbounded and stay whole until they meet a double; a truth
value counts as one or zero. -/

namespace Radioplay

attribute [local instance (high)] instPowNat

inductive Value where
  | null
  | bool (b : Bool)
  | int (n : Int)
  | float (x : Float)
  | str (s : String)
  | arr (items : List Value)
  | obj (fields : List (String × Value))
  deriving Inhabited

/-- A whole number or a double. -/
inductive Number where
  | int (n : Int)
  | float (x : Float)
  deriving Inhabited

namespace Number

def toValue : Number → Value
  | .int n => .int n
  | .float x => .float x

/-- The nearest double; a whole number beyond them all is a fault. -/
def toFloat : Number → Except Fault Float
  | .int n =>
    match Binary64.ofInt? n with
    | some x => .ok x
    | none => .error .overflow
  | .float x => .ok x

/-- Whole where both are whole, else on doubles. -/
def combine (whole : Int → Int → Int) (double : Float → Float → Float) :
    Number → Number → Except Fault Number
  | .int a, .int b => .ok (.int (whole a b))
  | a, b => do
    let x ← a.toFloat
    let y ← b.toFloat
    return .float (double x y)

def add : Number → Number → Except Fault Number := combine (· + ·) (· + ·)

def sub : Number → Number → Except Fault Number := combine (· - ·) (· - ·)

def mul : Number → Number → Except Fault Number := combine (· * ·) (· * ·)

/-- Always a double: the one nearest to the quotient of two whole numbers. -/
def div : Number → Number → Except Fault Number
  | .int a, .int b =>
    if b = 0 then .error .divisionByZero
    else
      match Binary64.nearest? ((a < 0) != (b < 0)) a.natAbs b.natAbs with
      | some x => .ok (.float x)
      | none => .error .overflow
  | a, b => do
    let x ← a.toFloat
    let y ← b.toFloat
    if y == 0 then .error .divisionByZero else return .float (x / y)

/-- The order of a whole number and a double, none where the double is no number. -/
def compareIntFloat (n : Int) (x : Float) : Option Ordering :=
  match Binary64.parts? x with
  | some p => some (p.compareInt n).swap
  | none => if Binary64.isNaN x then none else some (if x < 0 then .gt else .lt)

/-- The exact order of two numbers, none where one is no number. -/
def order? : Number → Number → Option Ordering
  | .int a, .int b => some (compare a b)
  | .int a, .float y => compareIntFloat a y
  | .float x, .int b => (compareIntFloat b x).map Ordering.swap
  | .float x, .float y =>
    if x < y then some .lt else if y < x then some .gt else if x == y then some .eq else none

def lt (a b : Number) : Bool := order? a b == some .lt

def le (a b : Number) : Bool := order? a b == some .lt || order? a b == some .eq

/-- The finite parts of a double that has to become whole. -/
def wholeParts (x : Float) : Except Fault Binary64.Parts :=
  match Binary64.parts? x with
  | some p => .ok p
  | none => .error (if Binary64.isNaN x then .notANumber else .overflow)

/-- The greatest whole number not above. -/
def floor : Number → Except Fault Int
  | .int n => .ok n
  | .float x => (wholeParts x).map (·.floor)

/-- The whole part, toward zero. -/
def trunc : Number → Except Fault Int
  | .int n => .ok n
  | .float x => (wholeParts x).map (·.trunc)

/-- The nearest whole number, an even one where two are as near. -/
def round : Number → Except Fault Int
  | .int n => .ok n
  | .float x => (wholeParts x).map (·.round)

/-- The number as a message shows it. -/
def text : Number → String
  | .int n => toString n
  | .float x => Decimal.text "inf" "nan" x

end Number

/-- The most digits that a whole number is read from or written with. -/
def digitLimit : Nat := 4300

/-- Does a whole number have more digits than are written? -/
def exceedsDigitLimit (n : Int) : Bool := decide (10 ^ digitLimit ≤ n.natAbs)

namespace Value

/-- Is a value worth a test's taking it as true? -/
def isTruthy : Value → Bool
  | .null => false
  | .bool b => b
  | .int n => n != 0
  | .float x => !(x == 0)
  | .str s => !s.isEmpty
  | .arr items => !items.isEmpty
  | .obj fields => !fields.isEmpty

def toNumber : Value → Except Fault Number
  | .bool b => .ok (.int (if b then 1 else 0))
  | .int n => .ok (.int n)
  | .float x => .ok (.float x)
  | _ => .error .wrongKind

/-- `n` copies one after another, none where `n` is negative. -/
def repeated {α : Type} (n : Int) (s : List α) : List α :=
  (List.replicate n.toNat s).flatten

/-- A whole number times a value: text and arrays are repeated. -/
def times (n : Int) : Value → Except Fault Value
  | .str s => .ok (.str (String.ofList (repeated n s.toList)))
  | .arr items => .ok (.arr (repeated n items))
  | v => do
    let x ← v.toNumber
    return (← Number.mul (.int n) x).toValue

mutual

/-- Equality by content: numbers by their worth, objects whatever the order of their fields. -/
def same : Value → Value → Bool
  | .null, .null => true
  | .str s, .str t => s == t
  | .arr xs, .arr ys => sameItems xs ys
  | .obj xs, .obj ys => xs.length == ys.length && sameFields xs ys
  | v, w =>
    match v.toNumber, w.toNumber with
    | .ok a, .ok b => Number.order? a b == some .eq
    | _, _ => false

def sameItems : List Value → List Value → Bool
  | [], [] => true
  | v :: vs, w :: ws => same v w && sameItems vs ws
  | _, _ => false

def sameFields : List (String × Value) → List (String × Value) → Bool
  | [], _ => true
  | (k, v) :: rest, ys =>
    (match ys.lookup k with
      | some w => same v w
      | none => false) && sameFields rest ys

end

mutual

/-- Is a value below another? Numbers, texts and arrays have an order, each among themselves. -/
def less : Value → Value → Except Fault Bool
  | .str s, .str t => .ok (s < t)
  | .arr xs, .arr ys => lessItems xs ys
  | v, w => do
    let a ← v.toNumber
    let b ← w.toNumber
    return Number.lt a b

/-- The first place where two arrays differ decides. -/
def lessItems : List Value → List Value → Except Fault Bool
  | [], ys => .ok (!ys.isEmpty)
  | _ :: _, [] => .ok false
  | v :: vs, w :: ws => if same v w then lessItems vs ws else less v w

end

/-- The greater of two values, the first unless the second is strictly greater. -/
def greater (v w : Value) : Except Fault Value := do
  return if ← less v w then w else v

/-- The field of an object. -/
def field? (v : Value) (key : String) : Except Fault (Option Value) :=
  match v with
  | .obj fields => .ok (fields.lookup key)
  | _ => .error .noMembers

end Value

end Radioplay
