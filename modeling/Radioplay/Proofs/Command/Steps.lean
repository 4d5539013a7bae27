import Radioplay.Command.Run
import Radioplay.Proofs.Outcome

/-! Runs as steps: how each way to build one ends and what it leaves behind, and what it takes for
a run of several steps to come to its end. -/

namespace Radioplay.Command

open Preview

namespace Run

variable {α β : Type} {s s'' : Session}

/-- How a run ends that starts in a session, and the session it leaves behind. -/
def perform (a : Run α) (s : Session) : Except Ending α × Session :=
  StateT.run (m := Id) (ExceptT.run a) s

@[simp] theorem perform_pure (x : α) (s : Session) : (pure x : Run α).perform s = (.ok x, s) := rfl

theorem perform_bind (a : Run α) (f : α → Run β) (s : Session) :
    (a >>= f).perform s =
      match a.perform s with
      | (.ok x, s') => (f x).perform s'
      | (.error e, s') => (.error e, s') := by
  unfold perform ExceptT.run StateT.run
  simp only [bind, ExceptT.bind, ExceptT.mk, StateT.bind, ExceptT.bindCont]
  cases a s with
  | mk outcome s' => cases outcome <;> rfl

@[simp] theorem perform_stop (e : Ending) (s : Session) :
    (stop e : Run α).perform s = (.error e, s) := rfl

@[simp] theorem perform_ofExcept_ok (x : α) (s : Session) :
    (ofExcept (.ok x)).perform s = (.ok x, s) := rfl

@[simp] theorem perform_ofExcept_error (fault : Fault) (s : Session) :
    (ofExcept (.error fault) : Run α).perform s = (.error (.raised fault), s) := rfl

@[simp] theorem perform_modify (f : Session → Session) (s : Session) :
    (modify f : Run Unit).perform s = (.ok (), f s) := rfl

@[simp] theorem perform_print (line : String) (s : Session) :
    (print line).perform s = (.ok (), { s with output := s.output ++ line ++ "\n" }) := rfl

@[simp] theorem perform_failWith (line : String) (s : Session) :
    (failWith line : Run α).perform s =
      (.error (.exit 1), { s with errors := s.errors ++ ("Error: " ++ line) ++ "\n" }) := rfl

theorem perform_onDesk (a : Act Desk α) (s : Session) :
    (onDesk a).perform s =
      (ofExcept (a.perform s.desk).1).perform { s with desk := (a.perform s.desk).2 } := rfl

@[simp] theorem perform_files (s : Session) : files.perform s = (.ok s.desk.files, s) := rfl

@[simp] theorem perform_folder_some (path : String) (s : Session) :
    (folder (some path)).perform s = (.ok path, s) := rfl

@[simp] theorem perform_folder_none (s : Session) :
    (folder none).perform s = (.error (.raised .wrongKind), s) := rfl

/-! ### Coming to the end -/

theorem perform_bind_eq_ok {a : Run α} {f : α → Run β} {y : β} :
    (a >>= f).perform s = (.ok y, s'') ↔
      ∃ x s', a.perform s = (.ok x, s') ∧ (f x).perform s' = (.ok y, s'') := by
  rw [perform_bind]
  constructor
  · intro h
    split at h
    · rename_i x s' hFirst
      exact ⟨x, s', hFirst, h⟩
    · cases h
  · rintro ⟨x, s', hFirst, hRest⟩
    simp only [hFirst, hRest]

@[simp] theorem perform_pure_eq_ok {x y : α} :
    (pure x : Run α).perform s = (.ok y, s'') ↔ x = y ∧ s = s'' := by
  simp

theorem perform_ofExcept_eq_ok {e : Except Fault α} {y : α} :
    (ofExcept e).perform s = (.ok y, s'') ↔ e = .ok y ∧ s = s'' := by
  cases e <;> simp

end Run

/-! ### Whole runs -/

/-- The steps that a command line asks for. -/
def stepsOf [Sound.Kit] (world : World) (words : List String) : Run Unit :=
  match requestOfLine words with
  | .ok (request, verbose) => runRequest world verbose request
  | .error s => runStop s

/-- The session that a run starts in. -/
def Session.before (files : FileTree) : Session := { desk := { files := files } }

theorem run_eq [Sound.Kit] (world : World) (words : List String) :
    run world words =
      match (stepsOf world words).perform (.before world.files) with
      | (.ok _, s) => (.exit 0, s)
      | (.error e, s) => (e, s) := rfl

theorem run_eq_of_exit [Sound.Kit] {world : World} {words : List String} {status : Nat}
    (h : (run world words).1 = .exit status) :
    run world words = (.exit status, (run world words).2) := by
  rw [← h]

/-- A run that ends in failure has come upon a step that does. -/
theorem perform_of_run_eq_exit [Sound.Kit] {world : World} {words : List String} {status : Nat}
    {s : Session} (h : run world words = (.exit status, s)) (hStatus : status ≠ 0) :
    (stepsOf world words).perform (.before world.files) = (.error (.exit status), s) := by
  rw [run_eq] at h
  rcases hSteps : (stepsOf world words).perform (.before world.files) with ⟨e | x, s'⟩
  · rw [hSteps] at h
    obtain ⟨rfl, rfl⟩ := Prod.mk.inj h
    rfl
  · rw [hSteps] at h
    obtain ⟨hEnding, -⟩ := Prod.mk.inj h
    exact absurd (Ending.exit.inj hEnding).symm hStatus

end Radioplay.Command
