import Radioplay.Fault

/-! Steps that may change a state and may fail; what has changed before a failure stays changed. -/

namespace Radioplay

abbrev Act (σ α : Type) := ExceptT Fault (StateM σ) α

namespace Act

variable {σ α : Type}

/-- Fails as `e` does, else answers as it does. -/
def ofExcept (e : Except Fault α) : Act σ α := ExceptT.mk (pure e)

def fail (fault : Fault) : Act σ α := ofExcept (.error fault)

/-- The outcome and the state after a step. -/
def perform (a : Act σ α) (s : σ) : Except Fault α × σ := StateT.run (m := Id) (ExceptT.run a) s

/-! What each way to build a step does to the outcome and the state. -/

variable {β : Type}

@[simp] theorem perform_pure (x : α) (s : σ) : (pure x : Act σ α).perform s = (.ok x, s) := rfl

theorem perform_bind (a : Act σ α) (f : α → Act σ β) (s : σ) :
    (a >>= f).perform s =
      match a.perform s with
      | (.ok x, s') => (f x).perform s'
      | (.error fault, s') => (.error fault, s') := by
  unfold perform ExceptT.run StateT.run
  simp only [bind, ExceptT.bind, ExceptT.mk, StateT.bind, ExceptT.bindCont]
  cases a s with
  | mk outcome s' => cases outcome <;> rfl

theorem perform_map (f : α → β) (a : Act σ α) (s : σ) :
    (f <$> a).perform s =
      match a.perform s with
      | (.ok x, s') => (.ok (f x), s')
      | (.error fault, s') => (.error fault, s') := by
  unfold perform ExceptT.run StateT.run
  simp only [Functor.map, ExceptT.map, ExceptT.mk, bind, StateT.bind]
  cases a s with
  | mk outcome s' => cases outcome <;> rfl

@[simp] theorem perform_ofExcept (e : Except Fault α) (s : σ) :
    (ofExcept e : Act σ α).perform s = (e, s) := rfl

@[simp] theorem perform_fail (fault : Fault) (s : σ) :
    (fail fault : Act σ α).perform s = (.error fault, s) := rfl

@[simp] theorem perform_get (s : σ) : (get : Act σ σ).perform s = (.ok s, s) := rfl

@[simp] theorem perform_set (s' s : σ) : (set s' : Act σ Unit).perform s = (.ok (), s') := rfl

@[simp] theorem perform_modify (f : σ → σ) (s : σ) :
    (modify f : Act σ Unit).perform s = (.ok (), f s) := rfl

end Act

end Radioplay
