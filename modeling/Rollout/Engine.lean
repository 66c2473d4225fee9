import Rollout.Table
import Rollout.Timestamp

/-!
# The state engine

An engine holds the current state of one workflow.  Whoever wants to change it takes the engine's
lock, of which there is one at a time; nobody waits for it.  A lock names its engine and its
generation, so that one that has been given back, or that belongs to another engine, is recognised.
A refused call leaves the engine as it was.

Generations are meant as words of 64 bits.  They are numbers here, which is the same as long as the
lock of an engine is taken fewer than 2^64 times.
-/

namespace Rollout

/-- Why an engine refuses a call. -/
inductive EngineError (S : Type) where
  | busy
  | invalidLock
  | invalidTransition (source target : S)
  deriving DecidableEq, Repr

def EngineError.message [ToString S] : EngineError S → String
  | busy => "state machine is busy: another operation is in progress"
  | invalidLock =>
    "invalid lock: the lock is stale, released or belongs to another state machine"
  | invalidTransition source target =>
    "invalid transition from " ++ toString source ++ " to " ++ toString target

/-- The right to change an engine's state. -/
structure Lock where
  engine : Nat
  generation : Nat
  deriving DecidableEq, Repr

/-- A transition that has been made. -/
structure Transition (S : Type) where
  source : S
  target : S
  time : Timestamp
  deriving DecidableEq, Repr

/-- The state of one workflow, and who may change it. -/
structure Engine (S : Type) where
  id : Nat
  table : TransitionTable S
  current : S
  /-- The generation of the lock that is out. -/
  held : Option Nat := none
  nextGeneration : Nat := 1
  last : Option (Transition S) := none
  deriving Repr

namespace Engine

variable {S : Type} [DecidableEq S]

def start (id : Nat) (table : TransitionTable S) (initial : S) : Engine S :=
  { id := id, table := table, current := initial }

def isLocked (e : Engine S) : Bool := e.held.isSome

/-- The lock is the one that is out. -/
def isCurrent (e : Engine S) (lock : Lock) : Bool :=
  lock.engine == e.id && e.held == some lock.generation

/-- The table allows to enter `target` from the current state. -/
def canTransition (e : Engine S) (target : S) : Bool := e.table.allows e.current target

/-- Take the lock; refused while it is out. -/
def acquire (e : Engine S) : Except (EngineError S) (Lock × Engine S) :=
  match e.held with
  | some _ => .error .busy
  | none =>
    .ok (⟨e.id, e.nextGeneration⟩,
      { e with held := some e.nextGeneration, nextGeneration := e.nextGeneration + 1 })

/-- Enter `target`: with the current lock, along an edge of the table. -/
def transition (e : Engine S) (lock : Lock) (target : S) (now : Timestamp) :
    Except (EngineError S) (Engine S) :=
  if e.isCurrent lock then
    if e.canTransition target then
      .ok { e with current := target, last := some ⟨e.current, target, now⟩ }
    else .error (.invalidTransition e.current target)
  else .error .invalidLock

/-- Give the lock back; nothing happens if it is not the current one. -/
def release (e : Engine S) (lock : Lock) : Engine S :=
  if e.isCurrent lock then { e with held := none } else e

end Engine
end Rollout
