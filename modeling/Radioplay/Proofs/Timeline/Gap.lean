import Radioplay.Proofs.Timeline.Walk

/-! The gap before an event, told from the events before it. The walk keeps only who spoke last and
in what state; `waitBefore_memory` says that this is all that the history comes to. -/

namespace Radioplay.Timeline

def isLocation : Event → Bool
  | .location _ => true
  | _ => false

/-- Is event `j` a line, with no location strictly between it and event `i`? -/
def isLineFor (events : List Event) (i j : Nat) : Bool :=
  events[j]?.any Event.isText && ((events.take i).drop (j + 1)).all fun e => !isLocation e

/-- The latest line before event `i` with no location strictly between them. -/
def lineBefore? (events : List Event) (i : Nat) : Option Nat :=
  ((List.range i).filter (isLineFor events i)).getLast?

/-- The gap before event `i`, by the events alone. Only a line has one. Where nobody is named as the
speaker of the line before, there is nobody to change from; a state left out or left empty is
neutral. -/
def gapAt (timing : Timing) (events : List Event) (i : Nat) : Value :=
  match events[i]?, (lineBefore? events i).bind fun j => events[j]? with
  | some (.text character state _), some (.text (some character') state' _) =>
    if some character' ≠ character then timing.speakerGapMs
    else if spokenState state' ≠ spokenState state then timing.stateChangeGapMs
    else .int 0
  | _, _ => .int 0

theorem isLineFor_self (events : List Event) (i : Nat) :
    isLineFor events (i + 1) i = events[i]?.any Event.isText := by
  have hNone : (events.take (i + 1)).drop (i + 1) = [] :=
    List.drop_eq_nil_of_le (List.length_take_le _ _)
  simp [isLineFor, hNone]

theorem isLineFor_succ {events : List Event} {i j : Nat} (hj : j < i) :
    isLineFor events (i + 1) j =
      (isLineFor events i j && events[i]?.all fun e => !isLocation e) := by
  have hTake : (events.take (i + 1)).drop (j + 1) =
      (events.take i).drop (j + 1) ++ events[i]?.toList := by
    rw [List.take_add_one]
    by_cases hi : i < events.length
    · rw [List.drop_append_of_le_length]
      rw [List.length_take]
      omega
    · simp [List.getElem?_eq_none (Nat.le_of_not_lt hi)]
  rw [isLineFor, isLineFor, hTake, List.all_append, Bool.and_assoc]
  cases events[i]? <;> simp

theorem lineBefore?_succ (events : List Event) (i : Nat) :
    lineBefore? events (i + 1) =
      if events[i]?.any Event.isText then some i
      else if events[i]?.all fun e => !isLocation e then lineBefore? events i
      else none := by
  have hBelow : (List.range i).filter (isLineFor events (i + 1)) =
      if events[i]?.all fun e => !isLocation e then (List.range i).filter (isLineFor events i)
      else [] := by
    split
    · rename_i hPlace
      apply List.filter_congr
      intro j hj
      rw [isLineFor_succ (List.mem_range.mp hj), hPlace, Bool.and_true]
    · rename_i hPlace
      apply List.filter_eq_nil_iff.mpr
      intro j hj
      rw [isLineFor_succ (List.mem_range.mp hj), eq_false_of_ne_true hPlace,
        Bool.and_false]
      exact Bool.false_ne_true
  rw [lineBefore?, List.range_succ, List.filter_append, hBelow]
  by_cases hText : events[i]?.any Event.isText
  · simp [isLineFor_self, hText]
  · simp only [List.filter_cons, isLineFor_self, hText, List.filter_nil, lineBefore?]
    split <;> simp_all

def memory (events : List Event) : Speaker := events.foldl memoryAfter none

def speakerOf : Event → Speaker
  | .text character state _ => character.map fun c => (c, stateOf state)
  | _ => none

theorem memory_append_singleton (events : List Event) (e : Event) :
    memory (events ++ [e]) = memoryAfter (memory events) e := by
  simp [memory]

/-- Pauses and shots leave the memory of the last line alone, and locations clear it. -/
theorem memory_take (events : List Event) (i : Nat) :
    memory (events.take i) =
      ((lineBefore? events i).bind fun j => events[j]?).bind speakerOf := by
  induction i with
  | zero => rfl
  | succ i ih =>
    rw [lineBefore?_succ, List.take_add_one]
    cases hEvent : events[i]? with
    | none => simpa using ih
    | some e =>
      rw [Option.toList_some, memory_append_singleton, ih]
      cases e <;> simp [Event.isText, isLocation, memoryAfter, speakerOf, hEvent]

/-- The memory of what came before tells the same gap as the history does. -/
theorem waitBefore_memory (timing : Timing) {events : List Event} {i : Nat} {e : Event}
    (hEvent : events[i]? = some e) :
    waitBefore timing (memory (events.take i)) e = gapAt timing events i := by
  rw [memory_take, gapAt, hEvent]
  simp only [← stateOf_eq]
  cases e with
  | text character state words =>
    cases hLine : (lineBefore? events i).bind fun j => events[j]? with
    | none => rfl
    | some line =>
      cases line with
      | text character' state' _ => cases character' <;> rfl
      | _ => rfl
  | _ => rfl

end Radioplay.Timeline
