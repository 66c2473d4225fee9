import Rollout.Operation

/-!
# Runs of guarded operations

What the steps of an operation do when nobody interferes, one equation for each.  An operation
meets the engine in one of three situations: the lock is out, the lock is free, or the operation
holds it.  The equations say for each situation what is answered and what becomes of the engine;
nothing else is touched but the counters.
-/

namespace Rollout

namespace Engine

variable {S : Type}

/-- The engine once its free lock has been taken. -/
def taken (e : Engine S) : Engine S :=
  { e with held := some e.nextGeneration, nextGeneration := e.nextGeneration + 1 }

def nextLock (e : Engine S) : Lock := ⟨e.id, e.nextGeneration⟩

def moved (e : Engine S) (target : S) (now : Timestamp) : Engine S :=
  { e with current := target, last := some ⟨e.current, target, now⟩ }

def freed (e : Engine S) : Engine S := { e with held := none }

@[simp] theorem isCurrent_moved (e : Engine S) (target : S) (now : Timestamp) (lock : Lock) :
    (e.moved target now).isCurrent lock = e.isCurrent lock := rfl

@[simp] theorem isCurrent_taken (e : Engine S) : e.taken.isCurrent e.nextLock = true := by
  simp [isCurrent, taken, nextLock]

/-- An engine with a current lock is not free. -/
theorem held_ne_none {e : Engine S} {lock : Lock} (h : e.isCurrent lock = true) :
    e.held ≠ none := by
  intro free
  simp [isCurrent, free] at h

theorem freed_taken {e : Engine S} (h : e.held = none) :
    e.taken.freed = { e with nextGeneration := e.nextGeneration + 1 } := by
  unfold taken freed
  rw [← h]

theorem acquire_free {e : Engine S} (h : e.held = none) :
    e.acquire = .ok (e.nextLock, e.taken) := by
  unfold acquire
  rw [h]
  rfl

theorem acquire_busy {e : Engine S} (h : e.held ≠ none) : e.acquire = .error .busy := by
  obtain ⟨g, hg⟩ := Option.ne_none_iff_exists'.1 h
  unfold acquire
  rw [hg]

theorem release_current {e : Engine S} {lock : Lock} (h : e.isCurrent lock = true) :
    e.release lock = e.freed := if_pos h

variable [DecidableEq S]

/-- The engine after an attempted transition. -/
def settled (e : Engine S) (target : S) (now : Timestamp) : Engine S :=
  if e.canTransition target then e.moved target now else e

theorem settled_of_can {e : Engine S} {target : S} (h : e.canTransition target = true)
    (now : Timestamp) : e.settled target now = e.moved target now := if_pos h

theorem settled_of_cannot {e : Engine S} {target : S} (h : e.canTransition target = false)
    (now : Timestamp) : e.settled target now = e := if_neg (by simp [h])

@[simp] theorem isCurrent_settled (e : Engine S) (target : S) (now : Timestamp) (lock : Lock) :
    (e.settled target now).isCurrent lock = e.isCurrent lock := by
  unfold settled
  split <;> rfl

/-- The engine after an operation that nobody interrupted. -/
def passed (e : Engine S) (running target : S) (now : Timestamp) : Engine S :=
  ((e.taken.moved running now).settled target now).freed

theorem passed_of_allows {e : Engine S} {running target : S}
    (h : e.table.allows running target = true) (now : Timestamp) :
    e.passed running target now =
      { e with
        current := target
        held := none
        nextGeneration := e.nextGeneration + 1
        last := some ⟨running, target, now⟩ } := by
  have can : (e.taken.moved running now).canTransition target = true := h
  unfold passed
  rw [settled_of_can can]
  rfl

/-- A current lock makes the transitions that the table has. -/
theorem transition_ok {e : Engine S} {lock : Lock} {target : S} (h : e.isCurrent lock = true)
    (can : e.canTransition target = true) (now : Timestamp) :
    e.transition lock target now = .ok (e.moved target now) := by
  unfold transition
  rw [if_pos h, if_pos can]
  rfl

theorem transition_refused {e : Engine S} {lock : Lock} {target : S} (h : e.isCurrent lock = true)
    (cannot : e.canTransition target = false) (now : Timestamp) :
    e.transition lock target now = .error (.invalidTransition e.current target) := by
  unfold transition
  rw [if_pos h, if_neg (by simp [cannot])]

end Engine

variable {S P α : Type}

namespace Shared

@[simp] theorem run_tally (t : Tally) (s : Shared S P) :
    (tally t).run s = ((), { s with counters := s.counters.record t }) := rfl

section Holding

variable {lock : Lock} {s : Shared S P}

theorem run_release (h : s.engine.isCurrent lock = true) :
    (release lock).run s = ((), { s with engine := s.engine.freed }) := by
  unfold release
  rw [Proc.run_modify, Engine.release_current h]

variable [DecidableEq S]

theorem run_enter_ok (h : s.engine.isCurrent lock = true) {target : S}
    (can : s.engine.canTransition target = true) :
    (enter lock target).run s = (.ok (), { s with engine := s.engine.moved target s.now }) := by
  unfold enter
  rw [Proc.run_change, Engine.transition_ok h can]
  rfl

theorem run_enter_refused (h : s.engine.isCurrent lock = true) {target : S}
    (cannot : s.engine.canTransition target = false) :
    (enter lock target).run s = (.error (.invalidTransition s.engine.current target), s) := by
  unfold enter
  rw [Proc.run_change, Engine.transition_refused h cannot]
  rfl

/-- Whoever holds the lock ends with the lock free, in the state that it wants if there is an edge
to it. -/
theorem run_finalize (h : s.engine.isCurrent lock = true) (target : S) :
    (finalize lock target).run s =
      ((), { s with engine := (s.engine.settled target s.now).freed }) := by
  unfold finalize
  rw [Proc.run_bind]
  cases can : s.engine.canTransition target with
  | true =>
    rw [run_enter_ok h can, run_release (by simpa using h), Engine.settled_of_can can]
  | false => rw [run_enter_refused h can, run_release h, Engine.settled_of_cannot can]

end Holding
end Shared

namespace Guarded

theorem run_acquire_free (stages : Stages S) {s : Shared S P} (h : s.engine.held = none) :
    (acquire stages).run s =
      (.ok ⟨s.engine.nextLock, stages⟩, { s with engine := s.engine.taken }) := by
  unfold acquire
  rw [Proc.run_change, Engine.acquire_free h]

theorem run_acquire_busy (stages : Stages S) {s : Shared S P} (h : s.engine.held ≠ none) :
    (acquire stages).run s =
      (.error (.engine .busy), { s with counters := s.counters.record .rejected }) := by
  unfold acquire
  rw [Proc.run_change, Engine.acquire_busy h]

variable [DecidableEq S] {g : Guarded S} {s : Shared S P}

theorem run_transition_ok (h : s.engine.isCurrent g.lock = true) {target : S}
    (can : s.engine.canTransition target = true) :
    (g.transition target).run s = (.ok (), { s with engine := s.engine.moved target s.now }) := by
  unfold transition
  rw [Proc.run_bind, Shared.run_enter_ok h can]
  rfl

theorem run_transition_refused (h : s.engine.isCurrent g.lock = true) {target : S}
    (cannot : s.engine.canTransition target = false) :
    (g.transition target).run s =
      (.error (.engine (.invalidTransition s.engine.current target)), s) := by
  unfold transition
  rw [Proc.run_bind, Shared.run_enter_refused h cannot]
  rfl

/-- An operation whose running state can be entered starts, and is counted. -/
theorem run_start_ok (h : s.engine.isCurrent g.lock = true)
    (can : s.engine.canTransition g.stages.running = true) :
    g.start.run s = (.ok ⟨g.lock, g.stages⟩,
      { s with
        engine := s.engine.moved g.stages.running s.now
        counters := s.counters.record .started }) := by
  unfold start
  rw [Proc.run_bind, run_transition_ok h can]
  rfl

/-- An operation that may not start settles as failed, if there is an edge, and is gone. -/
theorem run_start_refused (h : s.engine.isCurrent g.lock = true)
    (cannot : s.engine.canTransition g.stages.running = false) :
    g.start.run s =
      (.error (.engine (.invalidTransition s.engine.current g.stages.running)),
        { s with
          engine := (s.engine.settled g.stages.failed s.now).freed
          counters := s.counters.record .rejected }) := by
  unfold start
  rw [Proc.run_bind, run_transition_refused h cannot]
  simp only [Proc.run_bind, Shared.run_tally, Proc.run_pure]
  unfold drop
  rw [Shared.run_finalize]
  exact h

end Guarded

namespace Running

/-- An operation whose work has come to an outcome reports and settles, in this order. -/
theorem run_conclude [DecidableEq S] {r : Running S} {s : Shared S P}
    (outcome : Outcome (α × Option S))
    (report : Except (OperationError S) α → Proc (Shared S P) Unit)
    (payload : P) (h : s.engine.isCurrent r.lock = true)
    (reports : ((report (outcome.map Prod.fst).result).run
        { s with counters := s.counters.record outcome.tally }).2 =
      { s with counters := s.counters.record outcome.tally, payload := payload }) :
    (r.conclude outcome report).run s =
      ((outcome.map Prod.fst).result,
        { s with
          engine := (s.engine.settled (r.settledState outcome) s.now).freed
          counters := s.counters.record outcome.tally
          payload := payload }) := by
  unfold conclude
  simp only [Proc.run_bind, Shared.run_tally, Proc.run_pure]
  rw [reports, Shared.run_finalize]
  exact h

end Running
end Rollout
