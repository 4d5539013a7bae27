import Radioplay.Act

/-! What it takes for computations made of steps to succeed: every step has succeeded, in the state
that the one before it left. -/

namespace Radioplay

variable {α β : Type}

theorem bind_eq_ok {x : Except Fault α} {f : α → Except Fault β} {y : β} :
    x >>= f = .ok y ↔ ∃ a, x = .ok a ∧ f a = .ok y := by
  cases x <;> simp [bind, Except.bind]

theorem bind_eq_error {x : Except Fault α} {f : α → Except Fault β} {fault : Fault} :
    x >>= f = .error fault ↔ x = .error fault ∨ ∃ a, x = .ok a ∧ f a = .error fault := by
  cases x <;> simp [bind, Except.bind]

theorem map_eq_ok {x : Except Fault α} {f : α → β} {y : β} :
    x.map f = .ok y ↔ ∃ a, x = .ok a ∧ f a = y := by
  cases x <;> simp [Except.map]

theorem map_eq_error {x : Except Fault α} {f : α → β} {fault : Fault} :
    x.map f = .error fault ↔ x = .error fault := by
  cases x <;> simp [Except.map]

theorem exists_ok_of_isOk {x : Except Fault α} (h : x.isOk = true) : ∃ a, x = .ok a := by
  cases x with
  | ok a => exact ⟨a, rfl⟩
  | error fault => cases h

theorem ok_bind (x : α) (f : α → Except Fault β) : Except.ok x >>= f = f x := rfl

@[simp] theorem pure_eq_ok {x y : α} : (pure x : Except Fault α) = .ok y ↔ x = y := by
  simp [pure, Except.pure]

namespace Act

variable {σ : Type}

theorem perform_bind_eq_ok {a : Act σ α} {f : α → Act σ β} {s s'' : σ} {y : β} :
    (a >>= f).perform s = (.ok y, s'') ↔
      ∃ x s', a.perform s = (.ok x, s') ∧ (f x).perform s' = (.ok y, s'') := by
  rw [perform_bind]
  constructor
  · intro h
    split at h
    · rename_i x s' hFirst
      exact ⟨x, s', hFirst, h⟩
    · cases h
  · rintro ⟨x, s', hFirst, hRest⟩
    simp only [hFirst, hRest]

@[simp] theorem perform_pure_eq_ok {x y : α} {s s' : σ} :
    (pure x : Act σ α).perform s = (.ok y, s') ↔ x = y ∧ s = s' := by
  simp

@[simp] theorem perform_ofExcept_eq_ok {e : Except Fault α} {y : α} {s s' : σ} :
    (ofExcept e : Act σ α).perform s = (.ok y, s') ↔ e = .ok y ∧ s = s' := by
  simp

theorem exists_of_isOk {a : Act σ α} {s : σ} (h : (a.perform s).1.isOk = true) :
    ∃ x s', a.perform s = (.ok x, s') := by
  rcases hRun : a.perform s with ⟨_ | x, s'⟩
  · rw [hRun] at h
    cases h
  · exact ⟨x, s', rfl⟩

end Act

end Radioplay
