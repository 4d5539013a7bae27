import Radioplay.Energy.Cache

/-! Threads that ask one cache at a time of their own choosing. A thread that finds no profile waits
for the lock of its key, looks again when it has the lock, and computes with the lock taken. What
happens between two looks at shared data is one step; any thread may take the next. -/

namespace Radioplay.Energy

/-- Where a thread is in its call. Locks are known by their numbers. -/
inductive Phase (β : Type) where
  /-- In no call. -/
  | idle
  /-- There was no profile; the lock of the key is waited for. -/
  | waiting (key : String) (lock : Nat)
  /-- The lock is taken, and the cache not yet looked at again. -/
  | looking (key : String) (lock : Nat)
  | computing (key : String) (lock : Nat)
  /-- A profile has been computed and is not yet kept. -/
  | storing (key : String) (lock : Nat) (profile : β)
  /-- The lock is about to be released; then the call comes out. -/
  | leaving (key : String) (lock : Nat) (outcome : Except Fault β)

/-- What the history of the threads tells, each time of a thread and a key. -/
inductive Happening (β : Type) where
  | begun (thread : Nat) (key : String)
  | computed (thread : Nat) (key : String) (outcome : Except Fault β)
  | answered (thread : Nat) (key : String) (outcome : Except Fault β)

/-- Threads at a cache. -/
structure Crowd (β : Type) where
  cache : Cache β
  /-- The lock of each key that is being computed or has failed to be. -/
  locks : Table Nat
  /-- How many locks have been made; the next has this number. -/
  made : Nat
  taken : Nat → Bool
  phase : Nat → Phase β
  /-- What has happened; no step looks at it. -/
  history : List (Happening β)

namespace Crowd

variable {β : Type}

/-- All threads idle at an empty cache. -/
def start : Crowd β := ⟨.empty, [], 0, fun _ => false, fun _ => .idle, []⟩

def enter (s : Crowd β) (t : Nat) (p : Phase β) : Crowd β :=
  { s with phase := fun u => if u = t then p else s.phase u }

@[simp] theorem enter_cache (s : Crowd β) (t : Nat) (p : Phase β) :
    (s.enter t p).cache = s.cache := rfl

@[simp] theorem enter_locks (s : Crowd β) (t : Nat) (p : Phase β) :
    (s.enter t p).locks = s.locks := rfl

@[simp] theorem enter_made (s : Crowd β) (t : Nat) (p : Phase β) :
    (s.enter t p).made = s.made := rfl

@[simp] theorem enter_taken (s : Crowd β) (t : Nat) (p : Phase β) :
    (s.enter t p).taken = s.taken := rfl

@[simp] theorem enter_history (s : Crowd β) (t : Nat) (p : Phase β) :
    (s.enter t p).history = s.history := rfl

theorem enter_phase (s : Crowd β) (t u : Nat) (p : Phase β) :
    (s.enter t p).phase u = if u = t then p else s.phase u := rfl

@[simp] theorem enter_phase_self (s : Crowd β) (t : Nat) (p : Phase β) :
    (s.enter t p).phase t = p := if_pos rfl

theorem enter_phase_of_ne {u t : Nat} (h : u ≠ t) (s : Crowd β) (p : Phase β) :
    (s.enter t p).phase u = s.phase u := if_neg h

def note (s : Crowd β) (h : Happening β) : Crowd β := { s with history := s.history ++ [h] }

@[simp] theorem note_cache (s : Crowd β) (h : Happening β) : (s.note h).cache = s.cache := rfl

@[simp] theorem note_locks (s : Crowd β) (h : Happening β) : (s.note h).locks = s.locks := rfl

@[simp] theorem note_taken (s : Crowd β) (h : Happening β) : (s.note h).taken = s.taken := rfl

@[simp] theorem note_phase (s : Crowd β) (h : Happening β) : (s.note h).phase = s.phase := rfl

@[simp] theorem note_history (s : Crowd β) (h : Happening β) :
    (s.note h).history = s.history ++ [h] := rfl

/-- Takes a lock, or gives it back. -/
def setTaken (s : Crowd β) (lock : Nat) (b : Bool) : Crowd β :=
  { s with taken := fun l => if l = lock then b else s.taken l }

/-- Makes a lock for a key. -/
def makeLock (s : Crowd β) (key : String) : Crowd β :=
  { s with locks := s.locks.put key s.made, made := s.made + 1 }

/-- Keeps a profile, after which its key needs no lock. -/
def keep (s : Crowd β) (key : String) (profile : β) : Crowd β :=
  { s with cache := ⟨s.cache.profiles.put key profile⟩, locks := s.locks.erase key }

@[simp] theorem setTaken_cache (s : Crowd β) (lock : Nat) (b : Bool) :
    (s.setTaken lock b).cache = s.cache := rfl

@[simp] theorem setTaken_history (s : Crowd β) (lock : Nat) (b : Bool) :
    (s.setTaken lock b).history = s.history := rfl

@[simp] theorem setTaken_phase (s : Crowd β) (lock : Nat) (b : Bool) :
    (s.setTaken lock b).phase = s.phase := rfl

@[simp] theorem makeLock_phase (s : Crowd β) (key : String) :
    (s.makeLock key).phase = s.phase := rfl

/-- The steps of thread `t`. -/
inductive Step (t : Nat) : Crowd β → Crowd β → Prop
  /-- A call for a key with a profile is answered at once. -/
  | answer {s : Crowd β} {key : String} {p : β} (hPhase : s.phase t = .idle)
    (hGet : s.cache.get? key = some p) : Step t s (s.note (.answered t key (.ok p)))
  /-- Another call has left a lock for the key. -/
  | join {s : Crowd β} {key : String} {lock : Nat} (hPhase : s.phase t = .idle)
    (hGet : s.cache.get? key = none) (hLock : s.locks.get? key = some lock) :
    Step t s (s.enter t (.waiting key lock))
  | make {s : Crowd β} {key : String} (hPhase : s.phase t = .idle)
    (hGet : s.cache.get? key = none) (hLock : s.locks.get? key = none) :
    Step t s ((s.makeLock key).enter t (.waiting key s.made))
  | acquire {s : Crowd β} {key : String} {lock : Nat} (hPhase : s.phase t = .waiting key lock)
    (hFree : s.taken lock = false) :
    Step t s ((s.setTaken lock true).enter t (.looking key lock))
  /-- A profile has been kept in the meantime. -/
  | find {s : Crowd β} {key : String} {lock : Nat} {p : β} (hPhase : s.phase t = .looking key lock)
    (hGet : s.cache.get? key = some p) : Step t s (s.enter t (.leaving key lock (.ok p)))
  | begin {s : Crowd β} {key : String} {lock : Nat} (hPhase : s.phase t = .looking key lock)
    (hGet : s.cache.get? key = none) :
    Step t s ((s.enter t (.computing key lock)).note (.begun t key))
  | succeed {s : Crowd β} {key : String} {lock : Nat} (hPhase : s.phase t = .computing key lock)
    (p : β) : Step t s ((s.enter t (.storing key lock p)).note (.computed t key (.ok p)))
  | fail {s : Crowd β} {key : String} {lock : Nat} (hPhase : s.phase t = .computing key lock)
    (fault : Fault) :
    Step t s
      ((s.enter t (.leaving key lock (.error fault))).note (.computed t key (.error fault)))
  | store {s : Crowd β} {key : String} {lock : Nat} {p : β}
    (hPhase : s.phase t = .storing key lock p) :
    Step t s ((s.keep key p).enter t (.leaving key lock (.ok p)))
  | release {s : Crowd β} {key : String} {lock : Nat} {outcome : Except Fault β}
    (hPhase : s.phase t = .leaving key lock outcome) :
    Step t s (((s.setTaken lock false).enter t .idle).note (.answered t key outcome))

/-- Steps of any threads, in any order. -/
inductive Reachable : Crowd β → Prop
  | start : Reachable start
  | step {s s' : Crowd β} {t : Nat} (h : Reachable s) (hStep : Step t s s') : Reachable s'

end Crowd

end Radioplay.Energy
