import Radioplay.Number.Binary64

/-! Decimal text of doubles. A double is written with the fewest digits that read back to it, the
nearest such number where several do; `Layout` says where the point and the exponent go. A decimal
numeral is read to the nearest double. -/

namespace Radioplay.Decimal

attribute [local instance (high)] instPowNat

/-- `0.d₁d₂… · 10 ^ point`. -/
structure Digits where
  digits : List Char
  point : Int
  deriving DecidableEq, Repr

/-- How the digits of a double are laid out. -/
structure Layout where
  /-- The least exponent written without an exponent mark. -/
  leastPlain : Int
  /-- The first exponent that needs a mark again. -/
  pastPlain : Int
  /-- Least number of digits of a marked exponent. -/
  exponentDigits : Nat

/-- Numbers from `0.0001` to below `10 ^ 16` are written plainly; an exponent has two digits. -/
def layout : Layout := ⟨-4, 16, 2⟩

/-- Is `n / d` below `10 ^ k`? -/
def belowPower (n d : Nat) (k : Int) : Bool :=
  if 0 ≤ k then n < d * 10 ^ k.toNat else n * 10 ^ (-k).toNat < d

/-- The least of `k, k + 1, …` whose power of ten is above `n / d`, looking `fuel` places on. -/
def pointFrom (n d : Nat) : Nat → Int → Int
  | 0, k => k
  | fuel + 1, k => if belowPower n d k then k else pointFrom n d fuel (k + 1)

/-- The `k` with `10 ^ (k - 1) ≤ n / d < 10 ^ k`; three decimal digits stand for ten binary ones to
within the places looked at. -/
def pointOf (n d : Nat) : Int :=
  pointFrom n d 5 (Int.fdiv (((n.log2 : Int) - d.log2 - 1) * 30103) 100000 - 1)

/-- `n / d · 10 ^ e` as a quotient. -/
def shifted (n d : Nat) (e : Int) : Nat × Nat :=
  if 0 ≤ e then (n * 10 ^ e.toNat, d) else (n, d * 10 ^ (-e).toNat)

/-- Does `c · 10 ^ e` read back as the magnitude `x`? -/
def readsBack (x : Float) (c : Nat) (e : Int) : Bool :=
  let (n, d) := shifted c 1 e
  match Binary64.nearest? false n d with
  | some y => y == x
  | none => false

/-- The digits of `c` with the zeros at its end dropped, given the place of its last digit. -/
def digitsOf (c : Nat) (e : Int) : Digits :=
  let ds := Nat.toDigits 10 c
  ⟨(ds.reverse.dropWhile (· == '0')).reverse, e + ds.length⟩

/-- The shortest digits of `x = n / d` among those with `count, count + 1, …` places. -/
def shortestFrom (x : Float) (n d : Nat) (k : Int) : (fuel count : Nat) → Digits
  | 0, count =>
    let (a, b) := shifted n d (count - k)
    digitsOf (Binary64.quotientEven a b) (k - count)
  | fuel + 1, count =>
    let e : Int := k - count
    let (a, b) := shifted n d (-e)
    let near := Binary64.quotientEven a b
    let far := if near = a / b then near + 1 else near - 1
    if readsBack x near e then digitsOf near e
    else if readsBack x far e then digitsOf far e
    else shortestFrom x n d k fuel (count + 1)

/-- The fewest digits that read back to the positive double `x`. -/
def shortest (x : Float) (p : Binary64.Parts) : Digits :=
  let (n, d) := p.magnitude
  shortestFrom x n d (pointOf n d) 16 1

def zeros (n : Int) : List Char := List.replicate n.toNat '0'

def exponentText (l : Layout) (e : Int) : List Char :=
  let ds := Nat.toDigits 10 e.natAbs
  'e' :: (if e < 0 then '-' else '+') :: (zeros (l.exponentDigits - ds.length) ++ ds)

def Digits.layOut (l : Layout) (t : Digits) : List Char :=
  let e := t.point - 1
  if l.leastPlain ≤ e ∧ e < l.pastPlain then
    if t.point ≤ 0 then '0' :: '.' :: (zeros (-t.point) ++ t.digits)
    else if (t.digits.length : Int) ≤ t.point then
      t.digits ++ zeros (t.point - t.digits.length) ++ ['.', '0']
    else t.digits.take t.point.toNat ++ '.' :: t.digits.drop t.point.toNat
  else
    match t.digits with
    | [] => exponentText l e
    | [c] => c :: exponentText l e
    | c :: cs => c :: '.' :: (cs ++ exponentText l e)

/-- The text of a finite double. -/
def finiteText (x : Float) (p : Binary64.Parts) : String :=
  let body :=
    if p.significand = 0 then ['0', '.', '0']
    else (shortest x.abs p).layOut layout
  String.ofList (if p.negative then '-' :: body else body)

/-- The text of a double, with the given words for infinity and for what is no number. -/
def text (infinityWord nanWord : String) (x : Float) : String :=
  match Binary64.parts? x with
  | some p => finiteText x p
  | none =>
    if Binary64.isNaN x then nanWord
    else if x < 0 then "-" ++ infinityWord else infinityWord

/-- A magnitude with a fixed number of decimal places, a tie going to the even digit. -/
def fixedMagnitude (places n d : Nat) : List Char :=
  let c := Binary64.quotientEven (n * 10 ^ places) d
  let whole := Nat.toDigits 10 (c / 10 ^ places)
  let part := Nat.toDigits 10 (c % 10 ^ places)
  if places = 0 then whole
  else whole ++ '.' :: (zeros ((places : Int) - part.length) ++ part)

/-- A double with a fixed number of decimal places. -/
def fixed (places : Nat) (x : Float) : String :=
  match Binary64.parts? x with
  | some p =>
    let (n, d) := p.magnitude
    let body := fixedMagnitude places n d
    String.ofList (if p.negative then '-' :: body else body)
  | none => if Binary64.isNaN x then "nan" else if x < 0 then "-inf" else "inf"

/-- A double rounded to the given number of decimal places, a tie going to the even digit. -/
def roundTo (places : Nat) (x : Float) : Float :=
  match Binary64.parts? x with
  | some p =>
    let (n, d) := p.magnitude
    let c := Binary64.quotientEven (n * 10 ^ places) d
    (Binary64.nearest? p.negative c (10 ^ places)).getD x
  | none => x

/-- The double nearest to `± c · 10 ^ e`; infinite beyond the largest. Exponents far outside the
range are settled before any power is formed. -/
def ofScientific (negative : Bool) (c : Nat) (e : Int) : Float :=
  let size := e + (Nat.toDigits 10 c).length
  if c = 0 ∨ size < -400 then Float.ofBits (if negative then 0x8000000000000000 else 0)
  else if 400 < size then Binary64.infinity negative
  else
    let (n, d) := shifted c 1 e
    (Binary64.nearest? negative n d).getD (Binary64.infinity negative)

end Radioplay.Decimal
