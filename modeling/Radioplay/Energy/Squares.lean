import Radioplay.Quantity
import Radioplay.Sound.Chunk

/-! Sums of squares. Where numbers are rounded a sum depends on the order in which it is formed. A
long list is halved; a short one is added up in lanes side by side, and the sums of the lanes in
pairs. The first of the squares is added last. -/

namespace Radioplay.Energy

open Quantity

/-- How many lanes there are. -/
def lanes : Nat := 8

/-- The most numbers that are not halved. -/
def blockLimit : Nat := 128

variable {α : Type} [Quantity α]

/-- Adds numbers to a start, one after the other. -/
def sumFrom : (start : α) → List α → Except Fault α
  | start, [] => .ok start
  | start, x :: xs => do
    let next ← add start x
    sumFrom next xs

/-- Adds two rows, lane by lane. -/
def addRow : List α → List α → Except Fault (List α)
  | [], ys => .ok ys
  | xs, [] => .ok xs
  | x :: xs, y :: ys => do
    let sum ← add x y
    let sums ← addRow xs ys
    return sum :: sums

def addRows : (row : List α) → List (List α) → Except Fault (List α)
  | row, [] => .ok row
  | row, next :: rows => do
    let sums ← addRow row next
    addRows sums rows

/-- Adds each number at an even place to the one after it. -/
def addPairs : List α → Except Fault (List α)
  | x :: y :: rest => do
    let sum ← add x y
    let sums ← addPairs rest
    return sum :: sums
  | xs => .ok xs

/-- The sum of a list that is not halved; what does not fill all lanes is added at the end. -/
def sumBlock (xs : List α) : Except Fault α := do
  let whole := xs.length - xs.length % lanes
  let row ← addRows [] (Sound.chunks lanes (xs.take whole))
  let fours ← addPairs row
  let twos ← addPairs fours
  let sum ← addPairs twos
  sumFrom (ratio 0 1) (sum ++ xs.drop whole)

/-- The sum of a list; the first half of a long one fills all lanes. -/
def sum (xs : List α) : Except Fault α :=
  if xs.length ≤ blockLimit then sumBlock xs
  else do
    let half := xs.length / 2 - xs.length / 2 % lanes
    let first ← sum (xs.take half)
    let second ← sum (xs.drop half)
    add first second
termination_by xs.length
decreasing_by
  all_goals
    simp only [blockLimit, lanes, List.length_take, List.length_drop] at *
    omega

/-- The sum of the squares. -/
def sumSquares (xs : List α) : Except Fault α := do
  match ← xs.mapM fun x => mul x x with
  | [] => return ratio 0 1
  | [square] => return square
  | first :: rest =>
    let others ← sum rest
    add first others

end Radioplay.Energy
