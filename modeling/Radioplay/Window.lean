import Radioplay.Generator

/-! The stretch of a clip that a line of dialogue plays. Its start is drawn at random and moved on
to a quiet point near by; its end is moved back to one. -/

namespace Radioplay.Window

open Quantity

variable {α : Type} [Quantity α]

/-- The first point from `time` on, unless points past `last` come before it. -/
def firstFrom (time last : α) : List α → α
  | [] => time
  | p :: ps => if lt last p then time else if le time p then p else firstFrom time last ps

/-- The last point from `first` on among those before one past `time`; `best` if there is none. -/
def lastUpTo (time first best : α) : List α → α
  | [] => best
  | p :: ps => if lt time p then best else lastUpTo time first (if le first p then p else best) ps

/-- The first quiet point within `reach` after `time`, else `time`. -/
def snapAfter (time : α) (points : List α) (reach : α) : Except Fault α := do
  let last ← add time reach
  return firstFrom time last points

/-- The last quiet point within `reach` before `time`, else `time`. -/
def snapBefore (time : α) (points : List α) (reach : α) : Except Fault α := do
  let first ← sub time reach
  return lastUpTo time first time points

/-- The shortest stretch ever played, a tenth of a second. -/
def shortest : α := ratio 1 10

/-- The latest start that leaves room for the shortest stretch. -/
def latestStart (clip : α) : Except Fault α := do
  let room ← sub clip shortest
  return greater (ratio 0 1) room

/-- The latest start that is drawn: it leaves room for the length aimed at. -/
def latestDraw (clip target : α) : Except Fault α := do
  let room ← sub clip (greater target shortest)
  return greater (ratio 0 1) room

/-- The stretch, as its start and its length, that comes of a start drawn at `raw`. -/
def around (clip target : α) (points : List α) (raw : α) (range : Value) :
    Except Fault (α × α) := do
  let latest ← latestStart clip
  let reach ← ofValue range
  let start ← snapAfter raw (points.filter fun p => le p latest) reach
  let aim ← add start target
  let quiet ← snapBefore aim points reach
  let finish := lesser quiet clip
  let length ← sub finish start
  let room ← sub clip start
  return (start, lesser (greater shortest length) room)

/-- Picks a stretch of a clip, with one draw. -/
def pick (clip target : α) (points : List α) (g : Generator) (range : Value) :
    Except Fault ((α × α) × Generator) := do
  let latest ← latestDraw clip target
  let (m, g) := g.next
  let raw ← Generator.between (ofInt 0) latest m
  let window ← around clip target points raw range
  return (window, g)

end Radioplay.Window
