/-! Double words of IEEE 754, taken apart and put together in exact arithmetic: the fields of a
finite word, the word nearest to a quotient of natural numbers, and the whole numbers and quotients
that a word stands for. -/

namespace Radioplay.Binary64

-- Powers are the core library's, also where a larger library brings its own.
attribute [local instance (high)] instPowNat

/-- A finite word is worth `± significand · 2 ^ exponent`. -/
structure Parts where
  negative : Bool
  significand : Nat
  exponent : Int
  deriving DecidableEq, Repr

/-- The parts of a finite word; infinities and words that are no numbers have none. -/
def parts? (x : Float) : Option Parts :=
  let bits := x.toBits.toNat
  let biased : Nat := bits / 2 ^ (52 : Nat) % 2048
  let fraction : Nat := bits % 2 ^ (52 : Nat)
  let negative := decide (2 ^ (63 : Nat) ≤ bits)
  if biased = 2047 then none
  else if biased = 0 then some ⟨negative, fraction, -1074⟩
  else some ⟨negative, fraction + 2 ^ (52 : Nat), (biased : Int) - 1075⟩

/-- The magnitude as a quotient of natural numbers. -/
def Parts.magnitude (p : Parts) : Nat × Nat :=
  if 0 ≤ p.exponent then (p.significand * 2 ^ p.exponent.toNat, 1)
  else (p.significand, 2 ^ (-p.exponent).toNat)

/-- The numerator and the denominator of the exact value. -/
def Parts.fraction (p : Parts) : Int × Nat :=
  let (n, d) := p.magnitude
  (if p.negative then -(n : Int) else n, d)

/-- The natural number nearest to `n / d`, an even one where two are as near. -/
def quotientEven (n d : Nat) : Nat :=
  let q := n / d
  let r := n % d
  if 2 * r < d || (2 * r == d && q % 2 == 0) then q else q + 1

/-- `⌊n / d · 2 ^ (-e)⌋` as a quotient still to be rounded. -/
def scaled (n d : Nat) (e : Int) : Nat × Nat :=
  if 0 ≤ e then (n, d * 2 ^ e.toNat) else (n * 2 ^ (-e).toNat, d)

/-- The word nearest to `± n / d`, ties to the even significand; none beyond the largest finite
word. A word's bits count up with its magnitude, so a significand that rounds up to `2 ^ 53` needs
no care of its own. -/
def nearest? (negative : Bool) (n d : Nat) : Option Float :=
  let sign : Nat := if negative then 2 ^ (63 : Nat) else 0
  if n = 0 then some (Float.ofBits sign.toUInt64)
  else
    let e0 : Int := (n.log2 : Int) - d.log2 - 53
    let (n0, d0) := scaled n d e0
    let e1 := if 2 ^ (53 : Nat) ≤ n0 / d0 then e0 + 1 else e0
    let e := max e1 (-1074)
    let (n1, d1) := scaled n d e
    let bits := (e + 1074).toNat * 2 ^ (52 : Nat) + quotientEven n1 d1
    if bits < 2047 * 2 ^ (52 : Nat) then some (Float.ofBits (sign + bits).toUInt64) else none

/-- The word nearest to a whole number. -/
def ofInt? (n : Int) : Option Float := nearest? (n < 0) n.natAbs 1

def infinity (negative : Bool) : Float :=
  Float.ofBits (if negative then 0xFFF0000000000000 else 0x7FF0000000000000)

def isNaN (x : Float) : Bool := x != x

/-- The greatest whole number not above a finite word. -/
def Parts.floor (p : Parts) : Int :=
  let (n, d) := p.fraction
  Int.fdiv n d

/-- The greatest whole number not above a word, as a word, which is always exact; infinities and
words that are no numbers stay what they are. -/
def floor (x : Float) : Float :=
  match parts? x with
  | none => x
  | some p => (nearest? p.negative p.floor.natAbs 1).getD x

/-- The whole part of a finite word, toward zero. -/
def Parts.trunc (p : Parts) : Int :=
  let (n, d) := p.fraction
  Int.tdiv n d

/-- The whole number nearest to a finite word, an even one where two are as near. -/
def Parts.round (p : Parts) : Int :=
  let (n, d) := p.magnitude
  let q : Int := quotientEven n d
  if p.negative then -q else q

/-- The order of a whole number and the exact value of a finite word. -/
def Parts.compareInt (p : Parts) (n : Int) : Ordering :=
  let (a, d) := p.fraction
  compare a (n * d)

end Radioplay.Binary64
