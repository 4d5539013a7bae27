import Radioplay.Quantity

/-! The thresholds that windows are measured against. A number is the threshold of every window. An
array is laid along the windows: with one item it serves them all, else it has one item for each.
An array of arrays has a shape, which has to fit the windows before any item is looked at, and no
threshold comes of it in the end. -/

namespace Radioplay.Energy

open Quantity

attribute [local instance (high)] instPowNat

/-- The most axes that an array can have. -/
def axisLimit : Nat := 64

mutual

/-- The numbers of items along the axes of an array, outermost first; none where arrays beside each
other differ in shape. What is no array has no axis. -/
def shape? : Value → Option (List Nat)
  | .arr vs =>
    match vs with
    | [] => some [0]
    | v :: rest =>
      match shape? v with
      | some inner => if allShaped inner rest then some ((rest.length + 1) :: inner) else none
      | none => none
  | _ => some []

/-- Do all values have the shape? -/
def allShaped (shape : List Nat) : List Value → Bool
  | [] => true
  | v :: vs => shape? v == some shape && allShaped shape vs

end

mutual

/-- What the innermost arrays hold, in order. -/
def leaves : Value → List Value
  | .arr vs => leavesOf vs
  | v => [v]

def leavesOf : List Value → List Value
  | [] => []
  | v :: vs => leaves v ++ leavesOf vs

end

/-- Is a whole number one of 64 bits, with a sign or without? -/
def isWord (n : Int) : Bool := decide (-2 ^ (63 : Nat) ≤ n) && decide (n < 2 ^ (64 : Nat))

/-- Has an item to be kept as it is, and with it all items beside it? -/
def isLoose : Value → Bool
  | .null => true
  | .obj _ => true
  | .int n => !isWord n
  | _ => false

def isText : Value → Bool
  | .str _ => true
  | _ => false

variable {α : Type} [Quantity α]

/-- A threshold in the form that loudness is measured in. -/
def limit (v : Value) : Except Fault α := do
  let x ← (ofValue v : Except Fault α)
  measured x

def limitsOf (read : Value → Except Fault α) : List Value → Except Fault (List α)
  | [] => .ok []
  | v :: vs => do
    let x ← read v
    let xs ← limitsOf read vs
    return x :: xs

/-- Can a row of `width` items be laid along `n` windows? One item, or one window, fits any. -/
def fits (width n : Nat) : Bool := width == n || width == 1 || n == 1

/-- The thresholds that a row of items gives for `n` windows; an empty row gives none. -/
def spread (xs : List α) (n : Nat) : Except Fault (List α) :=
  match xs with
  | [x] => .ok (List.replicate n x)
  | xs => if xs.isEmpty || xs.length == n then .ok xs else .error .noSuchItem

/-- The thresholds that an array of a shape gives for `n` windows. Texts cannot be compared with
loudness, unless something beside them has to be kept as it is. -/
def limitsIn (shape : List Nat) (items : List Value) (n : Nat) : Except Fault (List α) :=
  let loose := items.any isLoose
  if axisLimit < shape.length then .error .badShape
  else if !loose && items.any isText then .error .notComparable
  else if !fits (shape.getLastD 0) n then .error .badShape
  else do
    let xs ← limitsOf (if loose then ofValue else limit) items
    if shape.length = 1 then spread xs n else throw .noSuchItem

/-- The thresholds of `n` windows. -/
def limits (threshold : Value) (n : Nat) : Except Fault (List α) :=
  match threshold with
  | .arr vs =>
    match shape? (.arr vs) with
    | some shape => limitsIn shape (leaves (.arr vs)) n
    | none => .error .badShape
  | .str _ => .error .notComparable
  | v => do
    let x ← limit v
    return List.replicate n x

end Radioplay.Energy
