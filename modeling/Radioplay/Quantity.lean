import Radioplay.Value

/-! The numbers that seconds and loudness are measured in. The rules for snapping, for picking a
window and for finding quiet stretches are stated once, over any `Quantity`; they run on `Number`,
and over the rationals every operation is exact. -/

namespace Radioplay

attribute [local instance (high)] instPowNat

class Quantity (α : Type) where
  /-- A setting as it was given. -/
  ofValue : Value → Except Fault α
  ofInt : Int → α
  /-- The quantity `n / d`, or the one nearest to it. -/
  ratio : (n : Int) → (d : Nat) → α
  add : α → α → Except Fault α
  sub : α → α → Except Fault α
  mul : α → α → Except Fault α
  div : α → α → Except Fault α
  floor : α → Except Fault Int
  /-- The nearest whole number, an even one where two are as near. -/
  round : α → Except Fault Int
  lt : α → α → Bool
  le : α → α → Bool
  /-- The form that loudness is measured in. -/
  measured : α → Except Fault α
  /-- Is the root of the mean of `count` squares, whose sum is given, below a threshold? -/
  rootMeanBelow : (squares : α) → (count : Nat) → (threshold : α) → Except Fault Bool

namespace Quantity

variable {α : Type} [Quantity α]

/-- The greater of two, the first unless the second is strictly greater. -/
def greater (a b : α) : α := if lt a b then b else a

/-- The lesser of two, the first unless the second is strictly less. -/
def lesser (a b : α) : α := if lt b a then b else a

end Quantity

/-- A whole number over another as a double; both of at most 53 bits divide exactly as doubles. -/
def Number.ratio (n : Int) (d : Nat) : Number :=
  if n.natAbs < 2 ^ (53 : Nat) ∧ d < 2 ^ (53 : Nat) then .float (Float.ofInt n / Float.ofNat d)
  else
    .float ((Binary64.nearest? (n < 0) n.natAbs d).getD (Binary64.infinity (n < 0)))

instance : Quantity Number where
  ofValue := Value.toNumber
  ofInt := Number.int
  ratio := Number.ratio
  add := Number.add
  sub := Number.sub
  mul := Number.mul
  div := Number.div
  floor := Number.floor
  round := Number.round
  lt := Number.lt
  le := Number.le
  measured x := x.toFloat.map Number.float
  rootMeanBelow squares count threshold := do
    let sum ← squares.toFloat
    return Number.lt (.float (sum / Float.ofNat count).sqrt) threshold

/-- The exact worth of a number. -/
def Number.toRat : Number → Except Fault Rat
  | .int n => .ok n
  | .float x => do
    let p ← Number.wholeParts x
    let (n, d) := p.fraction
    return mkRat n d

/-- The whole number nearest to a rational, an even one where two are as near. -/
def roundEven (x : Rat) : Int :=
  let part := x - x.floor
  if part < 1 / 2 then x.floor
  else if 1 / 2 < part then x.floor + 1
  else if x.floor % 2 = 0 then x.floor
  else x.floor + 1

instance : Quantity Rat where
  ofValue v := do
    let x ← v.toNumber
    x.toRat
  ofInt n := n
  ratio n d := mkRat n d
  add x y := .ok (x + y)
  sub x y := .ok (x - y)
  mul x y := .ok (x * y)
  div x y := if y = 0 then .error .divisionByZero else .ok (x / y)
  floor x := .ok x.floor
  round x := .ok (roundEven x)
  lt x y := decide (x < y)
  le x y := decide (x ≤ y)
  measured x := .ok x
  rootMeanBelow squares count threshold :=
    .ok (decide (0 < threshold ∧ squares < threshold * threshold * (count : Int)))

end Radioplay
