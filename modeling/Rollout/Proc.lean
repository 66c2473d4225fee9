/-!
# Computations in atomic steps

A `Proc` works on a state that it shares with others.  It goes on in atomic steps, and between two
of them any other computation may change the state.  `run` is the run without such interference;
`Pool.Step` is the relation in which the computations of a pool take turns in any order.
-/

namespace Rollout

/-- A computation on a shared state: done, or an atomic step that changes the state, after which
it goes on as the state before the step tells. -/
inductive Proc (σ : Type) (α : Type) where
  | done (result : α)
  | step (act : σ → σ) (next : σ → Proc σ α)

namespace Proc

variable {σ α β : Type}

/-- Go on with the result. -/
def bind : Proc σ α → (α → Proc σ β) → Proc σ β
  | done a, k => k a
  | step act next, k => step act fun s ↦ (next s).bind k

instance : Monad (Proc σ) where
  pure := done
  bind := bind

/-- Run without interference. -/
def run : Proc σ α → σ → α × σ
  | done a, s => (a, s)
  | step act next, s => (next s).run (act s)

def read (f : σ → α) : Proc σ α := step id fun s ↦ done (f s)

def modify (f : σ → σ) : Proc σ Unit := step f fun _ ↦ done ()

/-- Change the state and answer from the state before, in one step. -/
def change (act : σ → σ) (answer : σ → α) : Proc σ α := step act fun s ↦ done (answer s)

/-- A result alone leaves the state as it is. -/
@[simp]
theorem run_pure (a : α) (s : σ) : (pure a : Proc σ α).run s = (a, s) := rfl

@[simp]
theorem run_read (f : σ → α) (s : σ) : (read f).run s = (f s, s) := rfl

@[simp]
theorem run_modify (f : σ → σ) (s : σ) : (modify f).run s = ((), f s) := rfl

@[simp]
theorem run_change (act : σ → σ) (answer : σ → α) (s : σ) :
    (change act answer).run s = (answer s, act s) := rfl

/-- A sequence runs its first part and then the second from the state that the first leaves. -/
@[simp]
theorem run_bind (p : Proc σ α) (k : α → Proc σ β) (s : σ) :
    (p >>= k).run s = (k (p.run s).1).run (p.run s).2 := by
  show (p.bind k).run s = _
  induction p generalizing s with
  | done a => rfl
  | step act next ih => exact ih s (act s)

end Proc

/-- Computations that take turns on a shared state. -/
structure Pool (σ α : Type) where
  state : σ
  procs : List (Proc σ α)

/-- One of the computations makes its next atomic step. -/
inductive Pool.Step {σ α : Type} : Pool σ α → Pool σ α → Prop where
  | turn (s : σ) (before after : List (Proc σ α)) (act : σ → σ) (next : σ → Proc σ α) :
    Step ⟨s, before ++ .step act next :: after⟩ ⟨act s, before ++ next s :: after⟩

inductive Pool.Steps {σ α : Type} : Pool σ α → Pool σ α → Prop where
  | refl (p : Pool σ α) : Steps p p
  | tail {p q r : Pool σ α} : Steps p q → q.Step r → Steps p r

end Rollout
