import Mathlib.Logic.Relation
import Radioplay.Energy.Crowd

/-! However threads at a cache take their steps, a key is computed by one of them at a time, and no
longer once a computation has succeeded. All threads that seek a key without a profile share the
lock in the table, and the profile is kept while the lock is taken: so the lock may leave the table
with it, and who still waits for it finds the profile. -/

namespace Radioplay.Energy

open Relation (ReflTransGen)

variable {β : Type}

/-! ### Locks -/

namespace Phase

/-- The key and the lock of a thread that has the lock. -/
def held? : Phase β → Option (String × Nat)
  | .looking key lock | .computing key lock | .storing key lock _ | .leaving key lock _ =>
    some (key, lock)
  | .idle | .waiting _ _ => none

/-- The key and the lock of a thread that waits for the lock or has it. -/
def sought? : Phase β → Option (String × Nat)
  | .waiting key lock => some (key, lock)
  | p => p.held?

/-- The key of a thread that has begun to compute and not kept a profile. -/
def worked? : Phase β → Option String
  | .computing key _ | .storing key _ _ | .leaving key _ (.error _) => some key
  | _ => none

theorem sought?_of_held? {p : Phase β} {x : String × Nat} (h : p.held? = some x) :
    p.sought? = some x := by
  cases p <;> first | exact h | cases h

theorem held?_of_worked? {p : Phase β} {key : String} (h : p.worked? = some key) :
    ∃ lock, p.held? = some (key, lock) := by
  unfold worked? at h
  split at h <;> cases h <;> exact ⟨_, rfl⟩

end Phase

namespace Crowd

variable {s s' : Crowd β} {t u : Nat} {key : String} {lock : Nat}

attribute [local grind =] Table.get?_put Table.get?_erase

/-- The locks of a crowd are in order. A lock is taken by one thread at a time. Threads that seek a
key without a profile share the lock in the table; a key with a profile has none there, and nobody
works on it. Locks are made once for one key. -/
structure Locked (s : Crowd β) : Prop where
  taken_iff : ∀ l, s.taken l = true ↔ ∃ t k, (s.phase t).held? = some (k, l)
  exclusive : ∀ t u k k' l, (s.phase t).held? = some (k, l) →
    (s.phase u).held? = some (k', l) → t = u
  shared : ∀ t k l, s.cache.get? k = none → (s.phase t).sought? = some (k, l) →
    s.locks.get? k = some l
  unlocked : ∀ k p, s.cache.get? k = some p → s.locks.get? k = none
  unkept : ∀ t k, (s.phase t).worked? = some k → s.cache.get? k = none
  sought_lt : ∀ t k l, (s.phase t).sought? = some (k, l) → l < s.made
  locks_lt : ∀ k l, s.locks.get? k = some l → l < s.made
  sought_own : ∀ t k k' l, (s.phase t).sought? = some (k, l) → s.locks.get? k' = some l → k = k'
  locks_own : ∀ k k' l, s.locks.get? k = some l → s.locks.get? k' = some l → k = k'

theorem locked_start : Locked (start : Crowd β) := by
  constructor <;> simp [start, Phase.held?, Phase.sought?, Phase.worked?, Cache.get?, Cache.empty,
    Table.get?]

theorem Locked.note (h : Locked s) (x : Happening β) : Locked (s.note x) := by
  cases h
  constructor <;> assumption

/-- A thread that goes on within its call, with the same lock taken or not, changes nothing for the
others. -/
theorem Locked.enter {p : Phase β} (h : Locked s) (hHeld : p.held? = (s.phase t).held?)
    (hSought : p.sought? = (s.phase t).sought?)
    (hWorked : ∀ k, p.worked? = some k → s.cache.get? k = none) : Locked (s.enter t p) := by
  have hPhase (u : Nat) : ((s.enter t p).phase u).held? = (s.phase u).held? ∧
      ((s.enter t p).phase u).sought? = (s.phase u).sought? := by
    rw [enter_phase]
    split
    · rename_i hSelf
      exact hSelf ▸ ⟨hHeld, hSought⟩
    · exact ⟨rfl, rfl⟩
  refine
    { taken_iff := by simpa only [hPhase, enter_taken] using h.taken_iff
      exclusive := by simpa only [hPhase] using h.exclusive
      shared := by simpa only [hPhase, enter_cache, enter_locks] using h.shared
      unlocked := h.unlocked
      unkept := ?_
      sought_lt := by simpa only [hPhase, enter_made] using h.sought_lt
      locks_lt := h.locks_lt
      sought_own := by simpa only [hPhase, enter_locks] using h.sought_own
      locks_own := h.locks_own }
  intro u k hu
  rw [enter_phase] at hu
  split at hu
  · exact hWorked k hu
  · exact h.unkept u k hu

theorem Locked.join (h : Locked s) (hPhase : s.phase t = .idle)
    (hLock : s.locks.get? key = some lock) : Locked (s.enter t (.waiting key lock)) := by
  cases h
  constructor <;> simp only [Crowd.enter] <;>
    grind [Phase.held?, Phase.sought?, Phase.worked?]

/-- One thread at most has a lock for a key without a profile: two of them would share the lock. -/
theorem Locked.held_unique {l l' : Nat} (h : Locked s) (hGet : s.cache.get? key = none)
    (ht : (s.phase t).held? = some (key, l)) (hu : (s.phase u).held? = some (key, l')) :
    t = u := by
  have hSame : l = l' := Option.some.inj
    ((h.shared t key l hGet (Phase.sought?_of_held? ht)).symm.trans
      (h.shared u key l' hGet (Phase.sought?_of_held? hu)))
  exact h.exclusive t u key key l ht (hSame ▸ hu)

theorem Locked.worked_unique (h : Locked s) (ht : (s.phase t).worked? = some key)
    (hu : (s.phase u).worked? = some key) : t = u := by
  obtain ⟨l, hl⟩ := Phase.held?_of_worked? ht
  obtain ⟨l', hl'⟩ := Phase.held?_of_worked? hu
  exact h.held_unique (h.unkept t key ht) hl hl'

/-- A new lock has a number that no lock had before. -/
theorem Locked.make (h : Locked s) (hPhase : s.phase t = .idle) (hGet : s.cache.get? key = none)
    (hLock : s.locks.get? key = none) :
    Locked ((s.makeLock key).enter t (.waiting key s.made)) := by
  cases h
  constructor <;> simp only [Crowd.enter, makeLock] <;>
    grind [Phase.held?, Phase.sought?, Phase.worked?]

theorem Locked.acquire (h : Locked s) (hPhase : s.phase t = .waiting key lock)
    (hFree : s.taken lock = false) :
    Locked ((s.setTaken lock true).enter t (.looking key lock)) := by
  have hNobody (u : Nat) (k : String) : (s.phase u).held? ≠ some (k, lock) := by
    intro hu
    rw [(h.taken_iff lock).mpr ⟨u, k, hu⟩] at hFree
    cases hFree
  have hMine : ((s.enter t (.looking key lock)).phase t).held? = some (key, lock) := by
    rw [enter_phase_self]
    rfl
  cases h
  constructor <;> simp only [Crowd.enter, setTaken] at * <;>
    grind [Phase.held?, Phase.sought?, Phase.worked?]

theorem Locked.keep {p : β} (h : Locked s) (hPhase : s.phase t = .storing key lock p) :
    Locked ((s.keep key p).enter t (.leaving key lock (.ok p))) := by
  have hOther (u : Nat) (hu : (s.phase u).worked? = some key) : u = t :=
    h.worked_unique hu (by rw [hPhase]; rfl)
  cases h
  constructor <;> simp only [Crowd.enter, Crowd.keep, Cache.get?] at * <;>
    grind [Phase.held?, Phase.sought?, Phase.worked?]

theorem Locked.release {outcome : Except Fault β} (h : Locked s)
    (hPhase : s.phase t = .leaving key lock outcome) :
    Locked ((s.setTaken lock false).enter t .idle) := by
  have hHolder (u : Nat) (k : String) (hu : (s.phase u).held? = some (k, lock)) : u = t :=
    h.exclusive u t k key lock hu (by rw [hPhase]; rfl)
  cases h
  constructor <;> simp only [Crowd.enter, setTaken] <;>
    grind [Phase.held?, Phase.sought?, Phase.worked?]

theorem Locked.step (h : Locked s) (hStep : Step t s s') : Locked s' := by
  cases hStep with
  | answer hPhase hGet => exact h.note _
  | join hPhase hGet hLock => exact h.join hPhase hLock
  | make hPhase hGet hLock => exact h.make hPhase hGet hLock
  | acquire hPhase hFree => exact h.acquire hPhase hFree
  | find hPhase hGet => exact h.enter (by rw [hPhase]; rfl) (by rw [hPhase]; rfl) (by rintro _ ⟨⟩)
  | begin hPhase hGet =>
    refine Locked.note (h.enter (by rw [hPhase]; rfl) (by rw [hPhase]; rfl) ?_) _
    rintro _ ⟨⟩
    exact hGet
  | succeed hPhase p =>
    refine Locked.note (h.enter (by rw [hPhase]; rfl) (by rw [hPhase]; rfl) ?_) _
    rintro _ ⟨⟩
    exact h.unkept t _ (by rw [hPhase]; rfl)
  | fail hPhase fault =>
    refine Locked.note (h.enter (by rw [hPhase]; rfl) (by rw [hPhase]; rfl) ?_) _
    rintro _ ⟨⟩
    exact h.unkept t _ (by rw [hPhase]; rfl)
  | store hPhase => exact h.keep hPhase
  | release hPhase => exact (h.release hPhase).note _

/-! ### History -/

end Crowd

namespace Happening

/-- The profile, where a computation for the key has succeeded. -/
def success? (key : String) : Happening β → Option β
  | .computed _ k (.ok p) => if k = key then some p else none
  | _ => none

/-- The fault, where the thread's computation for the key has failed. -/
def failure? (t : Nat) (key : String) : Happening β → Option Fault
  | .computed u k (.error fault) => if u = t ∧ k = key then some fault else none
  | _ => none

/-- The fault, where the thread's call for the key has failed. -/
def raise? (t : Nat) (key : String) : Happening β → Option Fault
  | .answered u k (.error fault) => if u = t ∧ k = key then some fault else none
  | _ => none

end Happening

/-- The fault that a thread's call for the key is about to fail with. -/
def Phase.raising (key : String) : Phase β → List Fault
  | .leaving k _ (.error fault) => if k = key then [fault] else []
  | _ => []

namespace Crowd

variable {s s' : Crowd β} {t u : Nat} {key : String} {lock : Nat}

/-- The profiles that have ever been computed for a key. -/
def successes (s : Crowd β) (key : String) : List β := s.history.filterMap (Happening.success? key)

/-- The faults of a thread's computations for a key, and those that its calls have failed with. -/
def failures (s : Crowd β) (t : Nat) (key : String) : List Fault :=
  s.history.filterMap (Happening.failure? t key)

def raises (s : Crowd β) (t : Nat) (key : String) : List Fault :=
  s.history.filterMap (Happening.raise? t key)

theorem filterMap_append_singleton {γ δ : Type} (f : γ → Option δ) (l : List γ) (x : γ) :
    (l ++ [x]).filterMap f = l.filterMap f ++ (f x).toList := by
  rw [List.filterMap_append]
  cases h : f x <;> simp [h]

@[simp] theorem enter_successes (s : Crowd β) (t : Nat) (p : Phase β) (key : String) :
    (s.enter t p).successes key = s.successes key := rfl

@[simp] theorem enter_failures (s : Crowd β) (t u : Nat) (p : Phase β) (key : String) :
    (s.enter t p).failures u key = s.failures u key := rfl

@[simp] theorem enter_raises (s : Crowd β) (t u : Nat) (p : Phase β) (key : String) :
    (s.enter t p).raises u key = s.raises u key := rfl

theorem successes_note (s : Crowd β) (x : Happening β) (key : String) :
    (s.note x).successes key = s.successes key ++ (x.success? key).toList :=
  filterMap_append_singleton _ _ _

theorem failures_note (s : Crowd β) (x : Happening β) (t : Nat) (key : String) :
    (s.note x).failures t key = s.failures t key ++ (x.failure? t key).toList :=
  filterMap_append_singleton _ _ _

theorem raises_note (s : Crowd β) (x : Happening β) (t : Nat) (key : String) :
    (s.note x).raises t key = s.raises t key ++ (x.raise? t key).toList :=
  filterMap_append_singleton _ _ _

/-- The history agrees with what is kept. A profile kept is the one success for its key, and so is
one about to be kept; calls come out with profiles that are kept; after a success nothing is
begun. -/
structure Recorded (s : Crowd β) : Prop where
  kept : ∀ k p, s.cache.get? k = some p → s.successes k = [p]
  stored : ∀ t k l p, s.phase t = .storing k l p → s.successes k = [p]
  unkept : ∀ k, s.cache.get? k = none → (∀ t l p, s.phase t ≠ .storing k l p) →
    s.successes k = []
  leaving : ∀ t k l p, s.phase t = .leaving k l (.ok p) → s.cache.get? k = some p
  answered : ∀ t k p, .answered t k (.ok p) ∈ s.history → s.cache.get? k = some p
  ordered : s.history.Pairwise fun a b => ∀ k t, (a.success? k).isSome → b ≠ .begun t k

theorem recorded_start : Recorded (start : Crowd β) := by
  constructor <;> simp [start, Cache.get?, Cache.empty, Table.get?, successes]

/-- While a thread has the lock of a key without a profile and is not about to keep one, nothing has
been computed for the key. -/
theorem Recorded.successes_eq_nil (hl : Locked s) (h : Recorded s)
    (hHeld : (s.phase t).held? = some (key, lock)) (hStay : ∀ p, s.phase t ≠ .storing key lock p)
    (hGet : s.cache.get? key = none) : s.successes key = [] := by
  apply h.unkept key hGet
  intro u l p hStoring
  have hOther : (s.phase u).held? = some (key, l) := by rw [hStoring]; rfl
  obtain rfl := hl.held_unique hGet hHeld hOther
  rw [hStoring] at hHeld
  cases hHeld
  exact hStay p hStoring

/-- The history does not tell of locks. -/
theorem Recorded.relock (h : Recorded s) (locks : Table Nat) (made : Nat) (taken : Nat → Bool) :
    Recorded { s with locks, made, taken } := by
  cases h
  constructor <;> assumption

/-- A thread that goes on and neither has nor gets a profile to keep leaves the history as it is. -/
theorem Recorded.enter {p : Phase β} (h : Recorded s)
    (hBefore : ∀ k l q, s.phase t ≠ .storing k l q) (hAfter : ∀ k l q, p ≠ .storing k l q)
    (hLeaving : ∀ k l q, p = .leaving k l (.ok q) → s.cache.get? k = some q) :
    Recorded (s.enter t p) := by
  have hStoring {u : Nat} {k : String} {l : Nat} {q : β} :
      (s.enter t p).phase u = .storing k l q ↔ s.phase u = .storing k l q := by
    rw [enter_phase]
    split
    · rename_i hSelf
      exact iff_of_false (hAfter k l q) (hSelf ▸ hBefore k l q)
    · rfl
  refine
    { kept := h.kept
      stored := fun u k l q hu => h.stored u k l q (hStoring.mp hu)
      unkept := fun k hk hNobody => h.unkept k hk fun u l q hu => hNobody u l q (hStoring.mpr hu)
      leaving := ?_
      answered := h.answered
      ordered := h.ordered }
  intro u k l q hu
  rw [enter_phase] at hu
  split at hu
  · exact hLeaving k l q hu
  · exact h.leaving u k l q hu

theorem ordered_append_singleton {l : List (Happening β)} {x : Happening β}
    (h : l.Pairwise fun a b => ∀ k t, (a.success? k).isSome → b ≠ .begun t k)
    (hx : ∀ a ∈ l, ∀ k t, (a.success? k).isSome → x ≠ .begun t k) :
    (l ++ [x]).Pairwise fun a b => ∀ k t, (a.success? k).isSome → b ≠ .begun t k := by
  refine List.pairwise_append.mpr ⟨h, List.pairwise_singleton _ _, fun a ha b hb => ?_⟩
  rw [List.mem_singleton.mp hb]
  exact hx a ha

/-- What happens is no success, an answer only with a profile that is kept, and a beginning only
where nothing has succeeded. -/
theorem Recorded.note {x : Happening β} (h : Recorded s) (hSuccess : ∀ k, x.success? k = none)
    (hAnswered : ∀ u k p, x = .answered u k (.ok p) → s.cache.get? k = some p)
    (hBegun : ∀ u k, x = .begun u k → s.successes k = []) : Recorded (s.note x) := by
  have hSame (k : String) : (s.note x).successes k = s.successes k := by
    rw [successes_note, hSuccess, Option.toList_none, List.append_nil]
  refine
    { kept := fun k p hk => (hSame k).trans (h.kept k p hk)
      stored := fun u k l p hu => (hSame k).trans (h.stored u k l p hu)
      unkept := fun k hk hNobody => (hSame k).trans (h.unkept k hk hNobody)
      leaving := h.leaving
      answered := ?answered
      ordered := ordered_append_singleton h.ordered ?ordered }
  case answered =>
    intro u k p hMem
    rcases List.mem_append.mp hMem with hMem | hMem
    · exact h.answered u k p hMem
    · exact hAnswered u k p (List.mem_singleton.mp hMem).symm
  case ordered =>
    rintro a ha k u hFirst rfl
    obtain ⟨p, hp⟩ := Option.isSome_iff_exists.mp hFirst
    have hMem : p ∈ s.successes k := List.mem_filterMap.mpr ⟨a, ha, hp⟩
    rw [hBegun u k rfl] at hMem
    cases hMem

/-- The first success for a key: nobody else works on the key, so the thread alone has a profile to
keep. -/
theorem Recorded.succeed (hl : Locked s) (h : Recorded s) (hPhase : s.phase t = .computing key lock)
    (p : β) : Recorded ((s.enter t (.storing key lock p)).note (.computed t key (.ok p))) := by
  have hGet := hl.unkept t key (by rw [hPhase]; rfl)
  have hNone : s.successes key = [] :=
    h.successes_eq_nil hl (by rw [hPhase]; rfl) (by simp [hPhase]) hGet
  have hSuccesses (k : String) :
      ((s.enter t (.storing key lock p)).note (.computed t key (.ok p))).successes k =
        if k = key then [p] else s.successes k := by
    rw [successes_note, enter_successes]
    split
    · rename_i hk
      simp [Happening.success?, hk, hNone]
    · rename_i hk
      simp [Happening.success?, Ne.symm hk]
  refine
    { kept := ?kept
      stored := ?stored
      unkept := ?unkept
      leaving := ?leaving
      answered := by simpa using h.answered
      ordered := ordered_append_singleton h.ordered (by rintro _ _ _ _ _ ⟨⟩) }
  case kept =>
    intro k q hq
    have hNe : k ≠ key := by
      rintro rfl
      cases hGet.symm.trans hq
    rw [hSuccesses, if_neg hNe]
    exact h.kept k q hq
  case stored =>
    intro u k l q hu
    rw [note_phase, enter_phase] at hu
    split at hu
    · cases hu
      rw [hSuccesses, if_pos rfl]
    · rename_i hOther
      have hNe : k ≠ key := by
        rintro rfl
        exact hOther (hl.worked_unique (by rw [hu]; rfl) (by rw [hPhase]; rfl))
      rw [hSuccesses, if_neg hNe]
      exact h.stored u k l q hu
  case unkept =>
    intro k hk hNobody
    have hNe : k ≠ key := by
      rintro rfl
      exact hNobody t lock p (enter_phase_self _ _ _)
    rw [hSuccesses, if_neg hNe]
    refine h.unkept k hk fun u l q hu => hNobody u l q ?_
    have hOther : u ≠ t := by
      rintro rfl
      cases hPhase.symm.trans hu
    rw [note_phase, enter_phase_of_ne hOther, hu]
  case leaving =>
    intro u k l q hu
    rw [note_phase, enter_phase] at hu
    split at hu
    · cases hu
    · exact h.leaving u k l q hu

theorem Recorded.keep {p : β} (hl : Locked s) (h : Recorded s)
    (hPhase : s.phase t = .storing key lock p) :
    Recorded ((s.keep key p).enter t (.leaving key lock (.ok p))) := by
  have hGet := hl.unkept t key (by rw [hPhase]; rfl)
  have hCache (k : String) : ((s.keep key p).enter t (.leaving key lock (.ok p))).cache.get? k =
      if k = key then some p else s.cache.get? k := Table.get?_put key p s.cache.profiles k
  have hStays (k : String) (q : β) (hq : s.cache.get? k = some q) :
      ((s.keep key p).enter t (.leaving key lock (.ok p))).cache.get? k = some q := by
    have hNe : k ≠ key := by
      rintro rfl
      cases hGet.symm.trans hq
    rw [hCache, if_neg hNe, hq]
  refine
    { kept := ?kept
      stored := ?stored
      unkept := ?unkept
      leaving := ?leaving
      answered := fun u k q hMem => hStays k q (h.answered u k q hMem)
      ordered := h.ordered }
  case kept =>
    intro k q hq
    rw [hCache] at hq
    split at hq
    · rename_i hk
      cases hq
      exact hk ▸ h.stored t key lock p hPhase
    · exact h.kept k q hq
  case stored =>
    intro u k l q hu
    rw [enter_phase] at hu
    split at hu
    · cases hu
    · exact h.stored u k l q hu
  case unkept =>
    intro k hk hNobody
    rw [hCache] at hk
    split at hk
    · cases hk
    · rename_i hNe
      refine h.unkept k hk fun u l q hu => hNobody u l q ?_
      have hOther : u ≠ t := by
        rintro rfl
        cases hPhase.symm.trans hu
        exact hNe rfl
      rw [enter_phase_of_ne hOther]
      exact hu
  case leaving =>
    intro u k l q hu
    rw [enter_phase] at hu
    split at hu
    · cases hu
      rw [hCache, if_pos rfl]
    · exact hStays k q (h.leaving u k l q hu)

theorem Recorded.step (hl : Locked s) (h : Recorded s) (hStep : Step t s s') : Recorded s' := by
  cases hStep with
  | answer hPhase hGet =>
    exact h.note (fun _ => rfl) (by rintro _ _ _ ⟨⟩; exact hGet) (by rintro _ _ ⟨⟩)
  | join hPhase => exact h.enter (by simp [hPhase]) (by simp) (by simp)
  | make hPhase =>
    exact Recorded.enter (s := s.makeLock _) (h.relock _ _ _) (by simp [hPhase]) (by simp) (by simp)
  | acquire hPhase =>
    exact Recorded.enter (s := s.setTaken _ true) (h.relock _ _ _) (by simp [hPhase]) (by simp)
      (by simp)
  | find hPhase hGet =>
    exact h.enter (by simp [hPhase]) (by simp) (by rintro _ _ _ ⟨⟩; exact hGet)
  | begin hPhase hGet =>
    have hNone := h.successes_eq_nil hl (by rw [hPhase]; rfl) (by simp [hPhase]) hGet
    exact (h.enter (by simp [hPhase]) (by simp) (by simp)).note (fun _ => rfl)
      (by rintro _ _ _ ⟨⟩) (by rintro _ _ ⟨⟩; exact hNone)
  | succeed hPhase p => exact h.succeed hl hPhase p
  | fail hPhase =>
    exact (h.enter (by simp [hPhase]) (by simp) (by simp)).note (fun _ => rfl)
      (by rintro _ _ _ ⟨⟩) (by rintro _ _ ⟨⟩)
  | store hPhase => exact h.keep hl hPhase
  | release hPhase =>
    refine Recorded.note (Recorded.enter (s := s.setTaken _ false) (h.relock _ _ _)
      (by simp [hPhase]) (by simp) (by simp)) (fun _ => rfl) ?_ (by rintro _ _ ⟨⟩)
    rintro _ _ p ⟨⟩
    exact h.leaving t _ _ p hPhase

/-! ### Failures -/

/-- A thread's calls fail with the faults of its own computations, each once and in turn. -/
def Blamed (s : Crowd β) : Prop :=
  ∀ t k, s.failures t k = s.raises t k ++ (s.phase t).raising k

theorem blamed_start : Blamed (start : Crowd β) := fun _ _ => rfl

theorem Blamed.enter {p : Phase β} (h : Blamed s)
    (hRaising : ∀ k, p.raising k = (s.phase t).raising k) : Blamed (s.enter t p) := by
  intro u k
  rw [enter_failures, enter_raises, enter_phase, h u k]
  split
  · rename_i hSelf
    rw [hRaising, hSelf]
  · rfl

theorem Blamed.note {x : Happening β} (h : Blamed s) (hFailure : ∀ u k, x.failure? u k = none)
    (hRaise : ∀ u k, x.raise? u k = none) : Blamed (s.note x) := by
  intro u k
  rw [failures_note, raises_note, hFailure, hRaise, note_phase, h u k]
  simp

/-- A thread takes up a fault with the computation that fails, and gives it up with its call. -/
theorem Blamed.enter_note {p : Phase β} {x : Happening β} (h : Blamed s)
    (hMine : ∀ k, (s.phase t).raising k ++ (x.failure? t k).toList =
      (x.raise? t k).toList ++ p.raising k)
    (hOthers : ∀ u, u ≠ t → ∀ k, x.failure? u k = none ∧ x.raise? u k = none) :
    Blamed ((s.enter t p).note x) := by
  intro u k
  rw [failures_note, raises_note, enter_failures, enter_raises, note_phase, h u k,
    List.append_assoc]
  by_cases hSelf : u = t
  · rw [hSelf, hMine, enter_phase_self, List.append_assoc]
  · obtain ⟨hFailure, hRaise⟩ := hOthers u hSelf k
    rw [hFailure, hRaise, enter_phase_of_ne hSelf]
    simp

theorem Blamed.fail (h : Blamed s) (hPhase : s.phase t = .computing key lock) (fault : Fault) :
    Blamed ((s.enter t (.leaving key lock (.error fault))).note
      (.computed t key (.error fault))) := by
  refine h.enter_note (fun k => ?_) fun u hu k => ⟨by simp [Happening.failure?, hu.symm], rfl⟩
  rw [hPhase]
  by_cases hk : key = k <;> simp [Phase.raising, Happening.failure?, Happening.raise?, hk]

theorem Blamed.release {outcome : Except Fault β} (h : Blamed s)
    (hPhase : s.phase t = .leaving key lock outcome) :
    Blamed (((s.setTaken lock false).enter t .idle).note (.answered t key outcome)) := by
  refine Blamed.enter_note (s := s.setTaken lock false) h (fun k => ?_) fun u hu k => ⟨rfl, ?_⟩
  · rw [setTaken_phase, hPhase]
    cases outcome with
    | ok p => rfl
    | error fault =>
      by_cases hk : key = k <;> simp [Phase.raising, Happening.failure?, Happening.raise?, hk]
  · cases outcome <;> simp [Happening.raise?, hu.symm]

theorem Blamed.step (h : Blamed s) (hStep : Step t s s') : Blamed s' := by
  cases hStep with
  | answer => exact h.note (fun _ _ => rfl) (fun _ _ => rfl)
  | join hPhase => exact h.enter (by simp [hPhase, Phase.raising])
  | make hPhase => exact Blamed.enter (s := s.makeLock _) h (by simp [hPhase, Phase.raising])
  | acquire hPhase =>
    exact Blamed.enter (s := s.setTaken _ true) h (by simp [hPhase, Phase.raising])
  | find hPhase => exact h.enter (by simp [hPhase, Phase.raising])
  | begin hPhase | succeed hPhase =>
    exact (h.enter (by simp [hPhase, Phase.raising])).note (fun _ _ => rfl) (fun _ _ => rfl)
  | fail hPhase fault => exact h.fail hPhase fault
  | store hPhase =>
    exact Blamed.enter (s := s.keep _ _) h (by simp [Crowd.keep, hPhase, Phase.raising])
  | release hPhase => exact h.release hPhase

theorem Reachable.locked (h : Reachable s) : Locked s := by
  induction h with
  | start => exact locked_start
  | step _ hStep ih => exact ih.step hStep

theorem Reachable.recorded (h : Reachable s) : Recorded s := by
  induction h with
  | start => exact recorded_start
  | step hBefore hStep ih => exact ih.step hBefore.locked hStep

theorem Reachable.blamed (h : Reachable s) : Blamed s := by
  induction h with
  | start => exact blamed_start
  | step _ hStep ih => exact ih.step hStep

/-! ### Going on -/

/-- The thread may ask for the key, or waits for its lock. -/
def Asks (s : Crowd β) (u : Nat) (key : String) : Prop :=
  s.phase u = .idle ∨ ∃ lock, s.phase u = .waiting key lock

theorem Asks.enter (h : s.Asks u key) (hNe : u ≠ t) (p : Phase β) : (s.enter t p).Asks u key := by
  rwa [Asks, enter_phase_of_ne hNe]

/-- The thread's own steps can take it to where it computes; nothing else has happened then. -/
def Computes (u : Nat) (key : String) (s : Crowd β) : Prop :=
  ∃ s' lock, ReflTransGen (Step u) s s' ∧ s'.phase u = .computing key lock ∧
    s'.cache = s.cache ∧ s'.history = s.history ++ [.begun u key]

theorem computes_of_waiting (hPhase : s.phase u = .waiting key lock)
    (hFree : s.taken lock = false) (hGet : s.cache.get? key = none) : Computes u key s := by
  have hAcquire := Step.acquire hPhase hFree
  have hBegin := Step.begin (s := (s.setTaken lock true).enter u (.looking key lock))
    (enter_phase_self _ _ _) hGet
  exact ⟨_, lock, .head hAcquire (.single hBegin), by simp, rfl, rfl⟩

/-- A thread that finds the lock of its key free, or makes it, goes on to compute. -/
theorem Locked.computes (hl : Locked s) (hAsks : s.Asks u key) (hGet : s.cache.get? key = none)
    (hFree : ∀ l, s.locks.get? key = some l → s.taken l = false) : Computes u key s := by
  rcases hAsks with hIdle | ⟨lock, hWaiting⟩
  · cases hLock : s.locks.get? key with
    | some lock =>
      obtain ⟨s', l, hRun, hDone⟩ := computes_of_waiting (s := s.enter u (.waiting key lock))
        (enter_phase_self _ _ _) (hFree lock hLock) hGet
      exact ⟨s', l, .head (.join hIdle hGet hLock) hRun, hDone⟩
    | none =>
      -- the number of a lock that is taken is a number given before
      have hNew : s.taken s.made = false := by
        rw [← Bool.not_eq_true, hl.taken_iff]
        rintro ⟨t, k, hHeld⟩
        exact Nat.lt_irrefl _ (hl.sought_lt t k s.made (Phase.sought?_of_held? hHeld))
      obtain ⟨s', l, hRun, hDone⟩ := computes_of_waiting
        (s := (s.makeLock key).enter u (.waiting key s.made)) (enter_phase_self _ _ _) hNew hGet
      exact ⟨s', l, .head (.make hIdle hGet hLock) hRun, hDone⟩
  · exact computes_of_waiting hWaiting
      (hFree lock (hl.shared u key lock hGet (by rw [hWaiting]; rfl))) hGet

/-- After a failure the thread releases the lock, and then any that asks for the key can compute. -/
theorem Locked.computes_of_release {fault : Fault} (hl : Locked s)
    (hPhase : s.phase t = .leaving key lock (.error fault)) :
    ∃ s₁, Step t s s₁ ∧ s₁.phase t = .idle ∧ s₁.cache = s.cache ∧
      (∀ u, u ≠ t → s₁.phase u = s.phase u) ∧ ∀ u, s₁.Asks u key → Computes u key s₁ := by
  have hGet := hl.unkept t key (by rw [hPhase]; rfl)
  have hMine := hl.shared t key lock hGet (by rw [hPhase]; rfl)
  refine ⟨_, .release hPhase, by simp, rfl, fun u hu => enter_phase_of_ne hu _ _, fun u hu => ?_⟩
  refine (hl.step (.release hPhase)).computes hu hGet fun l hLock => ?_
  obtain rfl : lock = l := Option.some.inj (hMine.symm.trans hLock)
  simp [setTaken]

/-- Steps of any threads can take the thread to where it computes. -/
def MayCompute (u : Nat) (key : String) (s : Crowd β) : Prop :=
  ∃ s' lock, ReflTransGen (fun a b => ∃ t, Step t a b) s s' ∧ s'.phase u = .computing key lock

theorem Computes.mayCompute (h : Computes u key s) : MayCompute u key s :=
  let ⟨s', lock, hRun, hPhase, _⟩ := h
  ⟨s', lock, ReflTransGen.mono (fun _ _ hStep => ⟨u, hStep⟩) _ _ hRun, hPhase⟩

theorem MayCompute.of_step (hStep : Step t s s') (h : MayCompute u key s') : MayCompute u key s :=
  let ⟨s'', lock, hRun, hPhase⟩ := h
  ⟨s'', lock, .head ⟨t, hStep⟩ hRun, hPhase⟩

theorem Locked.mayCompute_of_leaving {fault : Fault} (hl : Locked s) (hNe : u ≠ t)
    (hAsks : s.Asks u key) (hPhase : s.phase t = .leaving key lock (.error fault)) :
    MayCompute u key s := by
  obtain ⟨s₁, hStep, -, -, hOthers, hComputes⟩ := hl.computes_of_release hPhase
  refine .of_step hStep (hComputes u ?_).mayCompute
  rwa [Asks, hOthers u hNe]

theorem Locked.mayCompute_of_computing (hl : Locked s) (hNe : u ≠ t) (hAsks : s.Asks u key)
    (hPhase : s.phase t = .computing key lock) : MayCompute u key s :=
  have hFail := Step.fail hPhase .badPath
  .of_step hFail ((hl.step hFail).mayCompute_of_leaving hNe (hAsks.enter hNe _)
    (enter_phase_self _ _ _))

/-- While no computation for the key has succeeded, any thread that asks for it may come to compute:
whoever has the lock can fail, and leaves it. -/
theorem Locked.mayCompute (hl : Locked s) (hr : Recorded s) (hNone : s.successes key = [])
    (hAsks : s.Asks u key) : MayCompute u key s := by
  have hGet : s.cache.get? key = none := by
    cases hKept : s.cache.get? key with
    | none => rfl
    | some p => cases (hr.kept key p hKept).symm.trans hNone
  by_cases hFree : ∀ l, s.locks.get? key = some l → s.taken l = false
  · exact (hl.computes hAsks hGet hFree).mayCompute
  simp only [Classical.not_forall] at hFree
  obtain ⟨l, hLock, hTaken⟩ := hFree
  obtain ⟨t, k, hHeld⟩ := (hl.taken_iff l).mp (by simpa using hTaken)
  obtain rfl := hl.sought_own t k key l (Phase.sought?_of_held? hHeld) hLock
  have hNe : u ≠ t := by
    rintro rfl
    rcases hAsks with h | ⟨_, h⟩ <;> rw [h] at hHeld <;> cases hHeld
  cases hPhase : s.phase t with
  | idle | waiting => rw [hPhase] at hHeld; cases hHeld
  | looking =>
    rw [hPhase] at hHeld
    cases hHeld
    have hBegin := Step.begin hPhase hGet
    exact .of_step hBegin ((hl.step hBegin).mayCompute_of_computing hNe (hAsks.enter hNe _)
      (enter_phase_self _ _ _))
  | computing =>
    rw [hPhase] at hHeld
    cases hHeld
    exact hl.mayCompute_of_computing hNe hAsks hPhase
  | storing =>
    rw [hPhase] at hHeld
    cases hHeld
    cases (hr.stored t _ _ _ hPhase).symm.trans hNone
  | leaving k' l' outcome =>
    rw [hPhase] at hHeld
    cases hHeld
    cases outcome with
    | ok p => cases hGet.symm.trans (hr.leaving t _ _ p hPhase)
    | error fault => exact hl.mayCompute_of_leaving hNe hAsks hPhase

/-! ### A call alone -/

/-- What the history tells of a call that nobody interferes with. -/
def alone (t : Nat) (key : String) (compute : Except Fault β) (runs : Nat)
    (outcome : Except Fault β) : List (Happening β) :=
  (List.replicate runs [.begun t key, .computed t key compute]).flatten ++ [.answered t key outcome]

/-- A call that nobody interferes with does what the cache says: the same outcome, the same profiles
kept, and as many computations. -/
theorem Locked.getOrCompute (hl : Locked s) (hIdle : s.phase t = .idle)
    (hFree : ∀ l, s.locks.get? key = some l → s.taken l = false) (compute : Except Fault β) :
    ∃ s', ReflTransGen (Step t) s s' ∧ s'.phase t = .idle ∧
      s'.cache = (s.cache.getOrCompute key compute).2.1 ∧
      s'.history = s.history ++ alone t key compute (s.cache.getOrCompute key compute).2.2
        (s.cache.getOrCompute key compute).1 := by
  cases hGet : s.cache.get? key with
  | some p =>
    simp only [Cache.getOrCompute, hGet]
    exact ⟨_, .single (.answer hIdle hGet), hIdle, rfl, rfl⟩
  | none =>
    obtain ⟨s₁, lock, hRun, hPhase, hCache, hHistory⟩ := hl.computes (.inl hIdle) hGet hFree
    cases compute with
    | ok p =>
      simp only [Cache.getOrCompute, hGet]
      have hSucceed := Step.succeed hPhase p
      have hStore := Step.store (s := (s₁.enter t (.storing key lock p)).note
        (.computed t key (.ok p))) (enter_phase_self _ _ _)
      have hRelease := Step.release (s := (((s₁.enter t (.storing key lock p)).note
        (.computed t key (.ok p))).keep key p).enter t (.leaving key lock (.ok p)))
        (enter_phase_self _ _ _)
      refine ⟨_, ((hRun.tail hSucceed).tail hStore).tail hRelease, by simp, ?_, ?_⟩
      · simp [Crowd.keep, hCache]
      · simp [Crowd.keep, hHistory, alone]
    | error fault =>
      simp only [Cache.getOrCompute, hGet]
      have hFail := Step.fail hPhase fault
      have hRelease := Step.release (s := (s₁.enter t (.leaving key lock (.error fault))).note
        (.computed t key (.error fault))) (enter_phase_self _ _ _)
      refine ⟨_, (hRun.tail hFail).tail hRelease, by simp, hCache, ?_⟩
      simp [hHistory, alone]

/-! ### One flight -/

/-- What single flight means at one key. -/
structure SingleFlight (s : Crowd β) (key : String) : Prop where
  computing_unique : ∀ t u l l', s.phase t = .computing key l →
    s.phase u = .computing key l' → t = u
  successes_length : (s.successes key).length ≤ 1
  /-- After a success nothing is begun. -/
  ordered : s.history.Pairwise fun a b => ∀ t, (a.success? key).isSome → b ≠ .begun t key
  /-- A call comes out with the profile of the one success, and that profile alone is kept. -/
  answered : ∀ t p, .answered t key (.ok p) ∈ s.history → s.successes key = [p]
  kept : ∀ p, s.cache.get? key = some p → s.successes key = [p]
  /-- A failure changes neither the profiles nor the locks. -/
  failed : ∀ t s', Step t s s' → s'.failures t key ≠ s.failures t key →
    s'.cache = s.cache ∧ s'.locks = s.locks
  /-- The faults of a thread's calls are those of its own computations, each once and in turn. -/
  raised : ∀ t, s.failures t key = s.raises t key ++ (s.phase t).raising key
  /-- With its failed call a thread leaves the lock to any thread that asks. -/
  released : ∀ t l fault, s.phase t = .leaving key l (.error fault) →
    ∃ s', Step t s s' ∧ s'.phase t = .idle ∧ s'.cache = s.cache ∧
      ∀ u, s'.Asks u key → Computes u key s'
  mayCompute : s.successes key = [] → ∀ u, s.Asks u key → MayCompute u key s
  unlocked : ∀ p, s.cache.get? key = some p → s.locks.get? key = none

theorem Recorded.successes_length (h : Recorded s) (key : String) :
    (s.successes key).length ≤ 1 := by
  cases hGet : s.cache.get? key with
  | some p => simp [h.kept key p hGet]
  | none =>
    by_cases hStoring : ∃ t l p, s.phase t = .storing key l p
    · obtain ⟨t, l, p, hPhase⟩ := hStoring
      simp [h.stored t key l p hPhase]
    · simp [h.unkept key hGet fun t l p hPhase => hStoring ⟨t, l, p, hPhase⟩]

theorem Step.failed (hStep : Step t s s') (hFailed : s'.failures t key ≠ s.failures t key) :
    s'.cache = s.cache ∧ s'.locks = s.locks := by
  cases hStep with
  | fail => exact ⟨rfl, rfl⟩
  | _ =>
    exact absurd (by simp [failures, Happening.failure?, Crowd.keep, setTaken, makeLock]) hFailed

/-- However the threads take their steps, every key has one flight. -/
theorem Reachable.singleFlight (h : Reachable s) (key : String) : SingleFlight s key where
  computing_unique t u l l' ht hu :=
    h.locked.worked_unique (by rw [ht]; rfl) (by rw [hu]; rfl)
  successes_length := h.recorded.successes_length key
  ordered := h.recorded.ordered.imp fun hab t => hab key t
  answered t p hMem := h.recorded.kept key p (h.recorded.answered t key p hMem)
  kept p hGet := h.recorded.kept key p hGet
  failed t s' hStep hFailed := hStep.failed hFailed
  raised t := h.blamed t key
  released t l fault hPhase := by
    obtain ⟨s', hStep, hIdle, hCache, -, hComputes⟩ := h.locked.computes_of_release hPhase
    exact ⟨s', hStep, hIdle, hCache, hComputes⟩
  mayCompute hNone u hAsks := h.locked.mayCompute h.recorded hNone hAsks
  unlocked p hGet := h.locked.unlocked key p hGet

/-- Thread 1 joins thread 0 at the lock, thread 0 fails, and thread 1 computes the profile. -/
theorem handedOn_singleFlight : ∃ s : Crowd Nat, Reachable s ∧
    s.failures 0 "a" = [.badPath] ∧ s.successes "a" = [7] ∧ SingleFlight s "a" := by
  have hMake : Step 0 (start : Crowd Nat) ((start.makeLock "a").enter 0 (.waiting "a" 0)) :=
    .make rfl rfl rfl
  have hJoin : Step 1 ((start.makeLock "a").enter 0 (.waiting "a" 0))
      (((start.makeLock "a" : Crowd Nat).enter 0 (.waiting "a" 0)).enter 1 (.waiting "a" 0)) :=
    .join rfl rfl rfl
  have hFailed := (((Reachable.start.step hMake).step hJoin).step (.acquire (t := 0) rfl rfl)).step
    (.begin (t := 0) rfl rfl) |>.step (.fail (t := 0) rfl .badPath)
  have hReached := (((hFailed.step (.release (t := 0) rfl)).step (.acquire (t := 1) rfl rfl)).step
    (.begin (t := 1) rfl rfl)).step (.succeed (t := 1) rfl 7)
  exact ⟨_, hReached, rfl, rfl, hReached.singleFlight "a"⟩

end Crowd

end Radioplay.Energy
