import Mathlib.Logic.Basic

/-!
# Interrupted computations

A computation with a state that may raise: what it changed before it was interrupted stays changed.

* `exec_bind_of_ok`, `exec_bind_of_error` — what follows is done in the state left, or not at all
-/

namespace OtLab.Lib

variable {ε σ α β : Type}

/-- A computation over a state that survives exceptions. -/
abbrev Interruptible (ε σ α : Type) := ExceptT ε (StateM σ) α

/-- What a computation returns or raises, and the state it leaves. -/
def exec (m : Interruptible ε σ α) (s : σ) : Except ε α × σ := (StateT.run (ExceptT.run m) s).run

@[simp] theorem exec_pure (a : α) (s : σ) :
    exec (pure a : Interruptible ε σ α) s = (.ok a, s) := rfl

@[simp] theorem exec_throw (e : ε) (s : σ) :
    exec (throw e : Interruptible ε σ α) s = (.error e, s) := rfl

@[simp] theorem exec_modify (f : σ → σ) (s : σ) :
    exec (modify f : Interruptible ε σ Unit) s = (.ok (), f s) := rfl

theorem exec_get_bind (f : σ → Interruptible ε σ α) (s : σ) :
    exec (get >>= f) s = exec (f s) s := rfl

theorem exec_bind (m : Interruptible ε σ α) (f : α → Interruptible ε σ β) (s : σ) :
    exec (m >>= f) s = match exec m s with
      | (.ok a, s') => exec (f a) s'
      | (.error e, s') => (.error e, s') := by
  show (StateT.run (ExceptT.run m >>= ExceptT.bindCont f) s).run = _
  rw [StateT.run_bind, exec]
  rcases StateT.run (ExceptT.run m) s with ⟨a | e, s'⟩ <;> rfl

/-- What follows a part that returns is done in the state it left. -/
theorem exec_bind_of_ok {m : Interruptible ε σ α} {s s' : σ} {a : α} (h : exec m s = (.ok a, s'))
    (f : α → Interruptible ε σ β) : exec (m >>= f) s = exec (f a) s' := by
  rw [exec_bind, h]

/-- What follows a part that raises is not done. -/
theorem exec_bind_of_error {m : Interruptible ε σ α} {s s' : σ} {e : ε}
    (h : exec m s = (.error e, s')) (f : α → Interruptible ε σ β) :
    exec (m >>= f) s = (.error e, s') := by
  rw [exec_bind, h]

end OtLab.Lib
