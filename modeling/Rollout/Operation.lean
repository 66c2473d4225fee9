import Rollout.Counters
import Rollout.Engine
import Rollout.Proc
import Rollout.Validation

/-!
# Guarded operations

A piece of work that changes a workflow runs as a guarded operation.  It first takes the engine's
lock, then enters its running state, does its work, and in the end, however the work came out,
tries to enter a settled state and gives the lock back.  An operation that is dropped at any point
before its work came to an outcome settles as failed.

Each access to the engine is one atomic step, so that the operations of several clients can be
interleaved.
-/

namespace Rollout

/-- Why work failed: a chain of messages, outermost first, or a rejected value; either may have
been put into a context. -/
inductive Failure where
  | message (chain : List String)
  | validation (e : ValidationError)
  | context (text : String) (inner : Failure)
  deriving Repr

namespace Failure

/-- The messages, outermost first. -/
def chain : Failure → List String
  | message [] => [""]
  | message (m :: more) => m :: more
  | validation e => [e.message]
  | context text inner => text :: inner.chain

def outermost (f : Failure) : String := f.chain.headD ""

def text (f : Failure) : String := ": ".intercalate f.chain

def rejection? : Failure → Option ValidationError
  | message _ => none
  | validation e => some e
  | context _ inner => inner.rejection?

end Failure

/-- Why an operation did not succeed. -/
inductive OperationError (S : Type) where
  | engine (e : EngineError S)
  | failed (f : Failure)
  | panicked (message : String)
  deriving Repr

namespace OperationError

variable {S : Type}

def message [ToString S] : OperationError S → String
  | engine e => e.message
  | failed f => f.text
  | panicked m => "operation panicked: " ++ m

def isBusy : OperationError S → Bool
  | engine .busy => true
  | _ => false

def isInvalidTransition : OperationError S → Bool
  | engine (.invalidTransition ..) => true
  | _ => false

def rejection? : OperationError S → Option ValidationError
  | failed f => f.rejection?
  | _ => none

end OperationError

inductive PanicPayload where
  | text (s : String)
  | other
  deriving DecidableEq, Repr

def PanicPayload.message : PanicPayload → String
  | text s => s
  | other => "unknown panic"

/-- How work came out. -/
inductive Outcome (α : Type) where
  | returned (value : α)
  | failed (f : Failure)
  | panicked (p : PanicPayload)
  deriving Repr

namespace Outcome

variable {α β : Type}

def map (f : α → β) : Outcome α → Outcome β
  | returned a => returned (f a)
  | failed e => failed e
  | panicked p => panicked p

def tally : Outcome α → Tally
  | returned _ => .succeeded
  | failed _ => .failed
  | panicked _ => .panicked

/-- The result that an outcome gives. -/
def result {S : Type} : Outcome α → Except (OperationError S) α
  | returned a => .ok a
  | failed f => .error (.failed f)
  | panicked p => .error (.panicked p.message)

end Outcome

/-- The states that an operation moves through. -/
structure Stages (S : Type) where
  running : S
  succeeded : S
  failed : S
  deriving DecidableEq, Repr

/-- What the users of one engine share: the engine, the counters, the clock, and whatever else
they keep. -/
structure Shared (S P : Type) where
  engine : Engine S
  counters : Counters := {}
  now : Timestamp := Timestamp.epoch
  payload : P

/-- An operation that holds the lock and has not entered its running state. -/
structure Guarded (S : Type) where
  lock : Lock
  stages : Stages S
  deriving DecidableEq, Repr

/-- An operation in its running state. -/
structure Running (S : Type) where
  lock : Lock
  stages : Stages S
  deriving DecidableEq, Repr

namespace Shared

variable {S P : Type} [DecidableEq S]

def tally (t : Tally) : Proc (Shared S P) Unit :=
  .modify fun s ↦ { s with counters := s.counters.record t }

/-- Try to enter `target`. -/
def enter (lock : Lock) (target : S) : Proc (Shared S P) (Except (EngineError S) Unit) :=
  .change
    (fun s ↦ match s.engine.transition lock target s.now with
      | .ok e => { s with engine := e }
      | .error _ => s)
    (fun s ↦ (s.engine.transition lock target s.now).map fun _ ↦ ())

def release (lock : Lock) : Proc (Shared S P) Unit :=
  .modify fun s ↦ { s with engine := s.engine.release lock }

/-- End an operation: settle in `target` if the table allows it, and give the lock back. -/
def finalize (lock : Lock) (target : S) : Proc (Shared S P) Unit := do
  let _ ← enter lock target
  release lock

end Shared

namespace Guarded

variable {S P : Type} [DecidableEq S]

/-- Take the lock for an operation; one that finds it taken is counted as rejected. -/
def acquire (stages : Stages S) : Proc (Shared S P) (Except (OperationError S) (Guarded S)) :=
  .change
    (fun s ↦ match s.engine.acquire with
      | .ok (_, e) => { s with engine := e }
      | .error _ => { s with counters := s.counters.record .rejected })
    (fun s ↦ match s.engine.acquire with
      | .ok (lock, _) => .ok ⟨lock, stages⟩
      | .error e => .error (.engine e))

/-- A further transition before the operation starts. -/
def transition (g : Guarded S) (target : S) :
    Proc (Shared S P) (Except (OperationError S) Unit) := do
  return (← Shared.enter g.lock target).mapError .engine

/-- Give the operation up. -/
def drop (g : Guarded S) : Proc (Shared S P) Unit := Shared.finalize g.lock g.stages.failed

/-- Enter the running state.  An operation that may not is counted as rejected and given up. -/
def start (g : Guarded S) : Proc (Shared S P) (Except (OperationError S) (Running S)) := do
  match ← g.transition g.stages.running with
  | .ok () =>
    Shared.tally .started
    return .ok ⟨g.lock, g.stages⟩
  | .error e =>
    Shared.tally .rejected
    g.drop
    return .error e

/-- Take the lock and enter the running state. -/
def begin (stages : Stages S) : Proc (Shared S P) (Except (OperationError S) (Running S)) := do
  match ← acquire stages with
  | .ok g => g.start
  | .error e => return .error e

end Guarded

namespace Running

variable {S P α : Type} [DecidableEq S]

/-- Give the operation up. -/
def drop (r : Running S) : Proc (Shared S P) Unit := Shared.finalize r.lock r.stages.failed

/-- The state to settle in after an outcome.  Work that returns may name one. -/
def settledState (r : Running S) : Outcome (α × Option S) → S
  | .returned (_, settle) => settle.getD r.stages.succeeded
  | .failed _ | .panicked _ => r.stages.failed

/-- The work has come to an outcome: count it, report the result, settle, give the lock back. -/
def conclude (r : Running S) (outcome : Outcome (α × Option S))
    (report : Except (OperationError S) α → Proc (Shared S P) Unit) :
    Proc (Shared S P) (Except (OperationError S) α) := do
  let result := (outcome.map Prod.fst).result
  Shared.tally outcome.tally
  report result
  Shared.finalize r.lock (r.settledState outcome)
  return result

def run (r : Running S) (work : Proc (Shared S P) (Outcome (α × Option S)))
    (report : Except (OperationError S) α → Proc (Shared S P) Unit) :
    Proc (Shared S P) (Except (OperationError S) α) := do
  r.conclude (← work) report

end Running

/-- Take the lock, enter the running state, do the work, settle and give the lock back. -/
def runGuarded {S P α : Type} [DecidableEq S] (stages : Stages S)
    (work : Proc (Shared S P) (Outcome α)) :
    Proc (Shared S P) (Except (OperationError S) α) := do
  match ← Guarded.begin stages with
  | .ok r => r.conclude ((← work).map (·, none)) fun _ ↦ pure ()
  | .error e => return .error e

end Rollout
