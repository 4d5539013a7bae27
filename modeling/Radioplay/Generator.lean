import Radioplay.Quantity

/-! Repeatable random draws from a seed. The state is a word of 32 bits that a constant increment
walks through; a draw mixes the state into a word `m` and stands for `m / 2 ^ 32`, so every draw
lies in `[0, 1)`. -/

namespace Radioplay

attribute [local instance (high)] instPowNat

structure Generator where
  state : UInt32
  deriving DecidableEq, Repr, Inhabited

namespace Generator

def increment : UInt32 := 0x6D2B79F5

/-- Only the low 32 bits of a seed count. -/
def ofSeed (seed : Int) : Generator := ⟨UInt32.ofNat (seed % 2 ^ (32 : Nat)).toNat⟩

/-- The word drawn in a state. -/
def mix (s : UInt32) : UInt32 :=
  let t := (s ^^^ (s >>> 15)) * (s ||| 1)
  let t := (t + (t ^^^ (t >>> 7)) * (t ||| 61)) ^^^ t
  t ^^^ (t >>> 14)

def step (g : Generator) : Generator := ⟨g.state + increment⟩

/-- Draws a word. -/
def next (g : Generator) : UInt32 × Generator := (mix g.step.state, g.step)

section

variable {α : Type} [Quantity α]

open Quantity

/-- A drawn word as a quantity in `[0, 1)`. -/
def unit (m : UInt32) : α := ratio m.toNat (2 ^ (32 : Nat))

/-- The quantity that the word `m` picks between two bounds. -/
def between (lo hi : α) (m : UInt32) : Except Fault α := do
  let width ← sub hi lo
  let part ← mul (unit m) width
  add lo part

/-- The whole number that the word `m` picks between two bounds, both included. -/
def wholeBetween (lo hi : α) (m : UInt32) : Except Fault Int := do
  let width ← sub hi lo
  let count ← add width (ofInt 1)
  let part ← mul (unit m) count
  let x ← add lo part
  floor x

end

/-- The place that the word `m` picks among `count`. -/
def place (count : Nat) (m : UInt32) : Nat := m.toNat * count / 2 ^ (32 : Nat)

/-- An item of a list, with a draw unless the list is empty. -/
def choose {α : Type} (items : List α) (g : Generator) : Option α × Generator :=
  if items.isEmpty then (none, g)
  else
    let (m, g) := g.next
    (items[place items.length m]?, g)

end Generator

end Radioplay
