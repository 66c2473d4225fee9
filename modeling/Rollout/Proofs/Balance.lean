import Rollout.Proofs.Exit
import Rollout.Proofs.Interleaving
import Rollout.Proofs.Simulation

/-!
# Counters balance

The counters of a process are shared by all of its engines.  They are the books of its operations:
each operation has entered what its fate tells (`Fate.tallies`), and nobody else enters anything
(`Fleet.Accounted`).  From this all sums can be read off, at any time and for any number of engines.

A workflow that is used alone keeps stricter books.  No operation of it is lost, so that at most one
is open, and whoever was turned away was told so.
-/

namespace Rollout

theorem toNat_eq_ite (b : Bool) : (if b = true then 1 else 0) = b.toNat := by cases b <;> rfl

namespace Counters

def get (c : Counters) : Tally → Nat
  | .started => c.started
  | .succeeded => c.succeeded
  | .failed => c.failed
  | .panicked => c.panicked
  | .rejected => c.rejected

def recordAll (c : Counters) (ts : List Tally) : Counters := ts.foldl record c

/-- One event more adds one to its own counter and to no other. -/
theorem get_record (c : Counters) (t t' : Tally) :
    (c.record t').get t = c.get t + [t'].count t := by
  cases t <;> cases t' <;> rfl

/-- After several events each counter has grown by the number of those that it counts. -/
theorem get_recordAll (c : Counters) (ts : List Tally) (t : Tally) :
    (c.recordAll ts).get t = c.get t + ts.count t := by
  induction ts generalizing c with
  | nil => rfl
  | cons t' ts ih =>
    show ((c.record t').recordAll ts).get t = _
    rw [ih, get_record, Nat.add_assoc, ← List.count_append, List.singleton_append]

end Counters

/-! ### Fates -/

/-- What has become of an operation. -/
inductive Fate (S : Type) where
  /-- Another one had the lock. -/
  | busy
  | waiting (g : Guarded S)
  /-- It was given up before it started. -/
  | discarded
  /-- It was not allowed to start. -/
  | refused
  | running (r : Running S)
  /-- It was given up after it had started. -/
  | abandoned
  | ended (how : Outcome Unit)

namespace Fate

variable {S : Type}

/-- The fate that a client can tell from a result. -/
def ofResult {α : Type} (goOn : α → Fate S) : Except (OperationError S) α → Fate S
  | .ok a => goOn a
  | .error (.engine .busy) => busy
  | .error (.engine _) => refused
  | .error (.failed f) => ended (.failed f)
  | .error (.panicked message) => ended (.panicked (.text message))

/-- What an operation has entered in the books. -/
def tallies : Fate S → List Tally
  | waiting _ | discarded => []
  | busy | refused => [.rejected]
  | running _ | abandoned => [.started]
  | ended how => [.started, how.tally]

def isBusy : Fate S → Bool
  | busy => true
  | _ => false

def isRefused : Fate S → Bool
  | refused => true
  | _ => false

def isRunning : Fate S → Bool
  | running _ => true
  | _ => false

/-- It had started, and came to no outcome. -/
def isAbandoned : Fate S → Bool
  | abandoned => true
  | _ => false

def isEnded : Fate S → Bool
  | ended _ => true
  | _ => false

def isStarted : Fate S → Bool
  | running _ | abandoned | ended _ => true
  | _ => false

def hasReturned : Fate S → Bool
  | ended (.returned _) => true
  | _ => false

def hasFailed : Fate S → Bool
  | ended (.failed _) => true
  | _ => false

def hasPanicked : Fate S → Bool
  | ended (.panicked _) => true
  | _ => false

def entered : Tally → Fate S → Bool
  | .started => isStarted
  | .succeeded => hasReturned
  | .failed => hasFailed
  | .panicked => hasPanicked
  | .rejected => fun f ↦ f.isBusy || f.isRefused

/-- Nothing is entered twice. -/
theorem count_tallies (f : Fate S) (t : Tally) : f.tallies.count t = (f.entered t).toNat := by
  rcases f with _ | _ | _ | _ | _ | _ | ⟨_ | _ | _⟩ <;> cases t <;> rfl

/-- An operation that the engine refuses at its start counts as a rejection, whatever the reason. -/
theorem tallies_engine {α : Type} (goOn : α → Fate S) (e : EngineError S) :
    (ofResult goOn (.error (.engine e))).tallies = [.rejected] := by
  cases e <;> rfl

/-- An error tells the fate by itself. -/
theorem tallies_error {α β : Type} (goOn : α → Fate S) (goOn' : β → Fate S)
    (e : OperationError S) :
    (ofResult goOn (.error e)).tallies = (ofResult goOn' (.error e)).tallies := by
  cases e with
  | engine e => rw [tallies_engine, tallies_engine]
  | failed f => rfl
  | panicked message => rfl

/-- An operation that has come to an outcome counts as a start and as that outcome. -/
theorem tallies_outcome {α : Type} (how : Outcome α) :
    (ofResult (fun _ ↦ ended (.returned ())) how.result : Fate S).tallies =
      [.started] ++ [how.tally] := by
  cases how <;> rfl

end Fate

/-! ### What computations count -/

section Computations

variable {S P α β : Type}

/-- A step that counts nothing. -/
def Shared.Uncounted (act : Shared S P → Shared S P) : Prop := ∀ s, (act s).counters = s.counters

namespace Proc

/-- A computation that counts nothing. -/
def Discreet (p : Proc (Shared S P) α) : Prop := ∀ s, (p.run s).2.counters = s.counters

theorem Each.discreet {p : Proc (Shared S P) α} (h : p.Each Shared.Uncounted) : p.Discreet := by
  induction h with
  | done a => exact fun s ↦ rfl
  | @step act next kind _ ih => exact fun s ↦ (ih s (act s)).trans (kind s)

theorem Each.cut {σ : Type} {Q : (σ → σ) → Prop} {p : Proc σ α} (h : p.Each Q) (n : Nat) :
    (p.cut n).Each Q := by
  induction h generalizing n with
  | done a => cases n <;> exact .done ()
  | step kind _ ih =>
    cases n with
    | zero => exact .done ()
    | succ n => exact .step kind fun s ↦ ih s n

theorem Discreet.bind {p : Proc (Shared S P) α} {k : α → Proc (Shared S P) β} (h : p.Discreet)
    (rest : ∀ a, (k a).Discreet) : (p >>= k).Discreet := by
  intro s
  rw [run_bind, rest, h]

/-- The computation of an operation counts what the fate, told from its result, has in addition to
what the operation had before. -/
def Counts (before : List Tally) (p : Proc (Shared S P) α) (fate : α → Fate S) : Prop :=
  ∀ s, ∃ new, (p.run s).2.counters = s.counters.recordAll new ∧
    (fate (p.run s).1).tallies = before ++ new

variable {before : List Tally} {fate : α → Fate S} {p : Proc (Shared S P) α}

/-- A computation that counts nothing leaves its operation with the events it had. -/
theorem Discreet.counts (h : p.Discreet) (same : ∀ a, (fate a).tallies = before) :
    p.Counts before fate :=
  fun s ↦ ⟨[], h s, (same _).trans (List.append_nil _).symm⟩

theorem counts_pure {a : α} (same : (fate a).tallies = before) :
    (pure a : Proc (Shared S P) α).Counts before fate :=
  fun _ ↦ ⟨[], rfl, same.trans (List.append_nil _).symm⟩

/-- What counts nothing may come before a computation without changing what the latter counts. -/
theorem Discreet.then_counts {k : α → Proc (Shared S P) β} {fate : β → Fate S} (h : p.Discreet)
    (rest : ∀ a, (k a).Counts before fate) : (p >>= k).Counts before fate := by
  intro s
  obtain ⟨new, counted, tallies⟩ := rest (p.run s).1 (p.run s).2
  refine ⟨new, ?_, ?_⟩
  · rw [run_bind, counted, h]
  · rw [run_bind, tallies]

/-- Whatever is done with the result of a computation counts on from there. -/
theorem Counts.bind {k : α → Proc (Shared S P) β} {goOn : β → Fate S} (h : p.Counts before fate)
    (rest : ∀ a, (k a).Counts (fate a).tallies goOn) : (p >>= k).Counts before goOn := by
  intro s
  obtain ⟨first, counted, tallies⟩ := h s
  obtain ⟨second, counted', tallies'⟩ := rest (p.run s).1 (p.run s).2
  refine ⟨first ++ second, ?_, ?_⟩
  · rw [run_bind, counted', counted]
    exact (List.foldl_append ..).symm
  · rw [run_bind, tallies', tallies, List.append_assoc]

end Proc

variable [DecidableEq S]

theorem Shared.enter_discreet (lock : Lock) (target : S) :
    (enter lock target : Proc (Shared S P) _).Discreet := by
  intro s
  unfold enter
  rw [Proc.run_change]
  cases s.engine.transition lock target s.now <;> rfl

theorem Shared.finalize_discreet (lock : Lock) (target : S) :
    (finalize lock target : Proc (Shared S P) Unit).Discreet :=
  (enter_discreet lock target).bind fun _ _ ↦ rfl

namespace Guarded

omit [DecidableEq S] in
/-- An acquire counts a rejection if the lock is out, and nothing if it is handed out. -/
theorem acquire_counts (stages : Stages S) :
    (acquire stages : Proc (Shared S P) _).Counts [] (Fate.ofResult .waiting) := by
  intro s
  by_cases free : s.engine.held = none
  · rw [run_acquire_free stages free]
    exact ⟨[], rfl, rfl⟩
  · rw [run_acquire_busy stages free]
    exact ⟨[.rejected], rfl, rfl⟩

theorem transition_discreet (g : Guarded S) (target : S) :
    (g.transition target : Proc (Shared S P) _).Discreet :=
  (Shared.enter_discreet g.lock target).bind fun _ _ ↦ rfl

theorem drop_discreet (g : Guarded S) : (g.drop : Proc (Shared S P) Unit).Discreet :=
  Shared.finalize_discreet g.lock g.stages.failed

/-- The start of an operation counts as a start or as a rejection. -/
theorem start_counts (g : Guarded S) :
    (g.start : Proc (Shared S P) _).Counts [] (Fate.ofResult .running) := by
  unfold start transition
  intro s
  have entered := Shared.enter_discreet g.lock g.stages.running s
  simp only [Proc.run_bind, Proc.run_pure]
  cases ran : (Shared.enter g.lock g.stages.running).run s with
  | mk r s' =>
    rw [ran] at entered
    rw [← entered]
    cases r with
    | ok u => exact ⟨[.started], rfl, rfl⟩
    | error e =>
      have dropped := g.drop_discreet { s' with counters := s'.counters.record .rejected }
      exact ⟨[.rejected], dropped, Fate.tallies_engine _ e⟩

end Guarded

namespace Running

variable (r : Running S) (outcome : Outcome (α × Option S))
  {report : Except (OperationError S) α → Proc (Shared S P) Unit}
  {work : Proc (Shared S P) (Outcome (α × Option S))}

omit outcome in
theorem drop_discreet : (r.drop : Proc (Shared S P) Unit).Discreet :=
  Shared.finalize_discreet r.lock r.stages.failed

theorem conclude_counts (reports : ∀ result, (report result).Discreet) :
    (r.conclude outcome report).Counts [.started]
      (Fate.ofResult fun _ ↦ .ended (.returned ())) := by
  intro s
  have same : (outcome.map Prod.fst).tally = outcome.tally := by cases outcome <;> rfl
  unfold conclude
  simp only [Proc.run_bind, Shared.run_tally, Proc.run_pure]
  refine ⟨[outcome.tally], ?_, same ▸ Fate.tallies_outcome _⟩
  exact (Shared.finalize_discreet _ _ _).trans (reports _ _)

/-- Work and end of an operation count as its outcome, once. -/
theorem run_counts (works : work.Discreet) (reports : ∀ result, (report result).Discreet) :
    (r.run work report).Counts [.started] (Fate.ofResult fun _ ↦ .ended (.returned ())) :=
  works.then_counts fun outcome ↦ r.conclude_counts outcome reports

end Running

/-- An operation from end to end counts as a rejection, or as a start and an outcome. -/
theorem runGuarded_counts (stages : Stages S) {work : Proc (Shared S P) (Outcome α)}
    (works : work.Discreet) :
    (runGuarded stages work).Counts [] (Fate.ofResult fun _ ↦ .ended (.returned ())) := by
  have begins : (Guarded.begin stages : Proc (Shared S P) _).Counts []
      (Fate.ofResult .running) := by
    refine (Guarded.acquire_counts stages).bind fun r ↦ ?_
    cases r with
    | ok g => exact g.start_counts
    | error e => exact Proc.counts_pure (Fate.tallies_error _ _ e)
  refine begins.bind fun r ↦ ?_
  cases r with
  | ok r => exact works.then_counts fun outcome ↦ r.conclude_counts _ fun _ _ ↦ rfl
  | error e => exact Proc.counts_pure (Fate.tallies_error _ _ e)

end Computations

/-! ### Fleets -/

/-- Operations, each with its engine. -/
abbrev Operations {ι : Type} (S : ι → Type) : Type := List ((i : ι) × Fate (S i))

/-- Engines of any kinds, whose users share the counters, and all operations that there have been.
-/
structure Fleet (ι : Type) (S : ι → Type) (P : Type) where
  engines : (i : ι) → Engine (S i)
  counters : Counters := {}
  now : Timestamp
  payload : P
  /-- In the order in which they tried to take the lock of their engine. -/
  operations : Operations S := []

namespace Fleet

variable {ι : Type} {S : ι → Type} {P : Type} {α : Type}

def site (w : Fleet ι S P) (i : ι) : Shared (S i) P := ⟨w.engines i, w.counters, w.now, w.payload⟩

def count (w : Fleet ι S P) (has : (i : ι) → Fate (S i) → Bool) : Nat :=
  w.operations.countP fun o ↦ has o.1 o.2

section Steps

variable [DecidableEq ι]

/-- Run a computation on an engine.  Its result tells the fate of an operation, which stands between
the others. -/
def does (w : Fleet ι S P) (i : ι) (p : Proc (Shared (S i) P) α) (fate : α → Fate (S i))
    (before after : Operations S) : Fleet ι S P :=
  let (a, s) := p.run (w.site i)
  { engines := Function.update w.engines i s.engine
    counters := s.counters
    now := s.now
    payload := s.payload
    operations := before ++ ⟨i, fate a⟩ :: after }

abbrev done {i : ι} : Except (OperationError (S i)) α → Fate (S i) :=
  .ofResult fun _ ↦ .ended (.returned ())

variable [(i : ι) → DecidableEq (S i)]

/-- What can happen to operations.  If the work of one carries out others, these have steps of their
own, and it comes to its outcome by `conclude`. -/
inductive Step (w : Fleet ι S P) : Fleet ι S P → Prop where
  | acquire (i : ι) (stages : Stages (S i)) :
      Step w (w.does i (Guarded.acquire stages) (.ofResult .waiting) w.operations [])
  | transition (before : Operations S) {after : Operations S} {i : ι} {g : Guarded (S i)}
      (has : w.operations = before ++ ⟨i, .waiting g⟩ :: after) (target : S i) :
      Step w (w.does i (g.transition target) (fun _ ↦ .waiting g) before after)
  | start (before : Operations S) {after : Operations S} {i : ι} {g : Guarded (S i)}
      (has : w.operations = before ++ ⟨i, .waiting g⟩ :: after) :
      Step w (w.does i g.start (.ofResult .running) before after)
  | discard (before : Operations S) {after : Operations S} {i : ι} {g : Guarded (S i)}
      (has : w.operations = before ++ ⟨i, .waiting g⟩ :: after) :
      Step w (w.does i g.drop (fun _ ↦ .discarded) before after)
  /-- Work is done without interference. -/
  | run (before : Operations S) {after : Operations S} {i : ι} {r : Running (S i)} {α : Type}
      (has : w.operations = before ++ ⟨i, .running r⟩ :: after)
      {work : Proc (Shared (S i) P) (Outcome (α × Option (S i)))}
      {report : Except (OperationError (S i)) α → Proc (Shared (S i) P) Unit}
      (works : work.Each Shared.Uncounted)
      (reports : ∀ result, (report result).Each Shared.Uncounted) :
      Step w (w.does i (r.run work report) done before after)
  /-- Work that goes on in the background has come to an outcome. -/
  | conclude (before : Operations S) {after : Operations S} {i : ι} {r : Running (S i)} {α : Type}
      (has : w.operations = before ++ ⟨i, .running r⟩ :: after)
      (outcome : Outcome (α × Option (S i)))
      {report : Except (OperationError (S i)) α → Proc (Shared (S i) P) Unit}
      (reports : ∀ result, (report result).Each Shared.Uncounted) :
      Step w (w.does i (r.conclude outcome report) done before after)
  | drop (before : Operations S) {after : Operations S} {i : ι} {r : Running (S i)}
      (has : w.operations = before ++ ⟨i, .running r⟩ :: after) :
      Step w (w.does i r.drop (fun _ ↦ .abandoned) before after)
  /-- Work is given up after so many steps. -/
  | abort (before : Operations S) {after : Operations S} {i : ι} {r : Running (S i)} {α : Type}
      (has : w.operations = before ++ ⟨i, .running r⟩ :: after)
      {work : Proc (Shared (S i) P) α} (works : work.Each Shared.Uncounted) (steps : Nat) :
      Step w (w.does i (do work.cut steps; r.drop) (fun _ ↦ .abandoned) before after)
  | guarded (i : ι) (stages : Stages (S i)) {α : Type} (work : Proc (Shared (S i) P) (Outcome α))
      (works : work.Each Shared.Uncounted) :
      Step w (w.does i (runGuarded stages work) done w.operations [])
  /-- Engines are called directly, work goes on in the background, time passes. -/
  | meanwhile (engines : (i : ι) → Engine (S i)) (now : Timestamp) (payload : P) :
      Step w { w with engines := engines, now := now, payload := payload }

inductive Steps (w : Fleet ι S P) : Fleet ι S P → Prop where
  | refl : Steps w w
  | tail {w' w'' : Fleet ι S P} (steps : Steps w w') (step : w'.Step w'') : Steps w w''

/-! ### Books -/

omit [DecidableEq ι] [(i : ι) → DecidableEq (S i)]

/-- The books hold what the operations have entered. -/
def Accounted (w : Fleet ι S P) : Prop :=
  ∀ t, w.counters.get t = (w.operations.flatMap (·.2.tallies)).count t

variable {w w' : Fleet ι S P} {i : ι} {p : Proc (Shared (S i) P) α} {fate : α → Fate (S i)}
  {before after : Operations S}

/-- The books stay right if an operation goes on and enters what it has come to since. -/
theorem Accounted.does [DecidableEq ι] (h : w.Accounted) (old : Operations S)
    (has : w.operations = before ++ old ++ after)
    (counts : p.Counts (old.flatMap (·.2.tallies)) fate) :
    (w.does i p fate before after).Accounted := by
  intro t
  obtain ⟨new, counted, tallies⟩ := counts (w.site i)
  have sum := h t
  show ((p.run (w.site i)).2.counters).get t =
    ((before ++ ⟨i, fate (p.run (w.site i)).1⟩ :: after).flatMap (·.2.tallies)).count t
  rw [has] at sum
  simp only [List.flatMap_append, List.flatMap_cons, List.count_append] at sum ⊢
  rw [counted, Counters.get_recordAll, tallies, List.count_append]
  show w.counters.get t + _ = _
  omega

/-- The books stay right when an operation is begun. -/
theorem Accounted.opens [DecidableEq ι] (h : w.Accounted) (counts : p.Counts [] fate) :
    (w.does i p fate w.operations []).Accounted :=
  h.does [] (by simp) counts

theorem Accounted.goesOn [DecidableEq ι] (h : w.Accounted) {old : Fate (S i)}
    (has : w.operations = before ++ ⟨i, old⟩ :: after) (counts : p.Counts old.tallies fate) :
    (w.does i p fate before after).Accounted :=
  h.does [⟨i, old⟩] (by simp [has]) (by simpa using counts)

variable [DecidableEq ι] [(i : ι) → DecidableEq (S i)]

/-- The books stay right with each step of the fleet, whoever makes it. -/
theorem Accounted.step (h : w.Accounted) (step : w.Step w') : w'.Accounted := by
  cases step with
  | acquire i stages => exact h.opens (Guarded.acquire_counts stages)
  | transition before has target =>
    exact h.goesOn has ((Guarded.transition_discreet _ target).counts fun _ ↦ rfl)
  | start before has => exact h.goesOn has (Guarded.start_counts _)
  | discard before has => exact h.goesOn has ((Guarded.drop_discreet _).counts fun _ ↦ rfl)
  | run before has works reports =>
    exact h.goesOn has (Running.run_counts _ works.discreet fun result ↦ (reports result).discreet)
  | conclude before has outcome reports =>
    exact h.goesOn has (Running.conclude_counts _ outcome fun result ↦ (reports result).discreet)
  | drop before has => exact h.goesOn has ((Running.drop_discreet _).counts fun _ ↦ rfl)
  | @abort before after i r α has work works steps =>
    have discreet := (works.cut steps).discreet.bind fun _ ↦ r.drop_discreet
    exact h.goesOn has (discreet.counts fun _ ↦ rfl)
  | guarded i stages work works => exact h.opens (runGuarded_counts stages works.discreet)
  | meanwhile engines now payload => exact h

theorem Accounted.steps (h : w.Accounted) (steps : w.Steps w') : w'.Accounted := by
  induction steps with
  | refl => exact h
  | tail _ step ih => exact ih.step step

end Steps

def start (engines : (i : ι) → Engine (S i)) (now : Timestamp) (payload : P) : Fleet ι S P where
  engines := engines
  now := now
  payload := payload

/-- Before any operation there is nothing in the books. -/
theorem start_accounted (engines : (i : ι) → Engine (S i)) (now : Timestamp) (payload : P) :
    (start engines now payload).Accounted := by
  intro t
  cases t <;> rfl

/-- What the counters tell of the operations. -/
structure Balanced (w : Fleet ι S P) : Prop where
  started : w.counters.started = w.count fun _ ↦ Fate.isStarted
  /-- Every outcome is counted in its counter alone. -/
  succeeded : w.counters.succeeded = w.count fun _ ↦ Fate.hasReturned
  failed : w.counters.failed = w.count fun _ ↦ Fate.hasFailed
  panicked : w.counters.panicked = w.count fun _ ↦ Fate.hasPanicked
  outcomes : w.counters.succeeded + w.counters.failed + w.counters.panicked =
    w.count fun _ ↦ Fate.isEnded
  /-- The others that have started are alive, or have been given up. -/
  others : w.counters.started =
    w.counters.succeeded + w.counters.failed + w.counters.panicked +
      ((w.count fun _ ↦ Fate.isRunning) + w.count fun _ ↦ Fate.isAbandoned)
  rejected : w.counters.rejected = (w.count fun _ ↦ Fate.isBusy) + w.count fun _ ↦ Fate.isRefused

variable {w : Fleet ι S P} {p q r : (i : ι) → Fate (S i) → Bool}

/-- A counter tells how many operations have entered its event. -/
theorem Accounted.get_eq (h : w.Accounted) (t : Tally) :
    w.counters.get t = w.count fun _ ↦ Fate.entered t := by
  rw [h t]
  unfold count
  induction w.operations with
  | nil => rfl
  | cons o more ih =>
    rw [List.flatMap_cons, List.count_append, ih, Fate.count_tallies, List.countP_cons,
      toNat_eq_ite, Nat.add_comm]

/-- Operations told apart by their fate are counted apart. -/
theorem count_eq_add (w : Fleet ι S P)
    (either : ∀ i f, (p i f).toNat = (q i f).toNat + (r i f).toNat) :
    w.count p = w.count q + w.count r := by
  unfold count
  induction w.operations with
  | nil => rfl
  | cons o more ih =>
    simp only [List.countP_cons, toNat_eq_ite, ih, either]
    omega

/-- The books tell all. -/
theorem Accounted.balanced (h : w.Accounted) : w.Balanced := by
  have turned_away := w.count_eq_add (p := fun _ ↦ Fate.entered .rejected)
    (q := fun _ ↦ Fate.isBusy) (r := fun _ ↦ Fate.isRefused) fun i f ↦ by cases f <;> rfl
  have ended := w.count_eq_add (p := fun _ ↦ Fate.isEnded)
    (q := fun _ f ↦ f.hasReturned || f.hasFailed) (r := fun _ ↦ Fate.hasPanicked)
    fun i f ↦ by rcases f with _ | _ | _ | _ | _ | _ | ⟨_ | _ | _⟩ <;> rfl
  have settled := w.count_eq_add (p := fun _ f ↦ f.hasReturned || f.hasFailed)
    (q := fun _ ↦ Fate.hasReturned) (r := fun _ ↦ Fate.hasFailed)
    fun i f ↦ by rcases f with _ | _ | _ | _ | _ | _ | ⟨_ | _ | _⟩ <;> rfl
  have gone_on := w.count_eq_add (p := fun _ ↦ Fate.isStarted)
    (q := fun _ ↦ Fate.isEnded) (r := fun _ f ↦ f.isRunning || f.isAbandoned)
    fun i f ↦ by cases f <;> rfl
  have still_open := w.count_eq_add (p := fun _ f ↦ f.isRunning || f.isAbandoned)
    (q := fun _ ↦ Fate.isRunning) (r := fun _ ↦ Fate.isAbandoned)
    fun i f ↦ by cases f <;> rfl
  have started : w.counters.started = w.count fun _ ↦ Fate.isStarted := h.get_eq .started
  have succeeded : w.counters.succeeded = w.count fun _ ↦ Fate.hasReturned :=
    h.get_eq .succeeded
  have failed : w.counters.failed = w.count fun _ ↦ Fate.hasFailed := h.get_eq .failed
  have panicked : w.counters.panicked = w.count fun _ ↦ Fate.hasPanicked := h.get_eq .panicked
  exact
    { started := started
      succeeded := succeeded
      failed := failed
      panicked := panicked
      outcomes := by omega
      others := by omega
      rejected := (h.get_eq .rejected).trans turned_away }

end Fleet

/-! ### Workflows -/

variable {S : Type}

/-- An action was answered that another operation was busy, or that the state was not one for it. -/
def Answer.isConflict : Answer S → Bool
  | .refused e => e.isConflict
  | _ => false

namespace Session

/-- The operations in flight. -/
def inFlight (s : Session S) : Nat := s.job.isSome.toNat

/-- What has started has come to an outcome, or it is in flight. -/
def Even (s : Session S) : Prop :=
  s.site.counters.started = s.site.counters.succeeded + s.site.counters.failed +
    s.site.counters.panicked + s.inFlight

variable [DecidableEq S] [ToString S] {w : Workflow S} {s : Session S}

/-- An outcome is counted once. -/
theorem record_tally {α : Type} (c : Counters) (outcome : Outcome α) :
    let c' := c.record outcome.tally
    c'.started = c.started ∧
      c'.succeeded + c'.failed + c'.panicked = c.succeeded + c.failed + c.panicked + 1 ∧
        c'.rejected = c.rejected := by
  cases outcome with
  | returned value => exact ⟨rfl, by simp only [Outcome.tally, Counters.record]; omega, rfl⟩
  | failed f => exact ⟨rfl, by simp only [Outcome.tally, Counters.record]; omega, rfl⟩
  | panicked p => exact ⟨rfl, by simp only [Outcome.tally, Counters.record]; omega, rfl⟩

/-- What an action does to the counters: what a client waits for starts and comes to an outcome at
once, and a refusal is counted exactly if it is a conflict. -/
theorem Consistent.even_act (sound : w.plan.Sound w.options) (consistent : s.Consistent w)
    (even : s.Even) (a : Action) :
    (s.next w (.act a)).2.Even ∧ (s.next w (.act a)).2.site.counters.rejected =
      s.site.counters.rejected + ((s.next w (.act a)).1.any Answer.isConflict).toNat := by
  have acted := consistent.acted sound a
  obtain ⟨⟨⟨answer, job⟩, site⟩, ran⟩ : ∃ r, (w.act a).run s.site = r := ⟨_, rfl⟩
  have answer_eq : (s.next w (.act a)).1 = some answer := by
    show some ((w.act a).run s.site).1.1 = _
    rw [ran]
  rw [answer_eq]
  rw [(next_act ran).1] at acted ⊢
  rw [ran] at acted
  have settles (t : Tally) (settled : t = .succeeded ∨ t = .failed) {site' : Site S}
      (counted : site'.counters = (s.site.counters.record .started).record t) :
      (Session.mk site' (none.or s.job)).Even ∧
        site'.counters.rejected = s.site.counters.rejected := by
    unfold Even inFlight at even ⊢
    simp only [counted, Option.none_or]
    rcases settled with rfl | rfl
    · exact ⟨by simp only [Counters.record]; omega, rfl⟩
    · exact ⟨by simp only [Counters.record]; omega, rfl⟩
  cases acted with
  | @refused a e refusal valid site' untouched =>
    obtain ⟨generation, rfl⟩ := untouched
    show _ ∧ (if e.isConflict then s.site.counters.record .rejected
      else s.site.counters).rejected = s.site.counters.rejected + e.isConflict.toNat
    cases e.isConflict with
    | false => exact ⟨even, rfl⟩
    | true => exact ⟨even, rfl⟩
  | patched has free can accepted => exact settles .succeeded (.inl rfl) rfl
  | patchRejected has free can rejected => exact settles .failed (.inr rfl) rfl
  | configured has free can accepted => exact settles .succeeded (.inl rfl) rfl
  | configurationRejected has free can rejected => exact settles .failed (.inr rfl) rfl
  | began has free passes leads =>
    refine ⟨?_, rfl⟩
    unfold Even inFlight at even ⊢
    rw [consistent.no_job free] at even
    simp only [Counters.record, Option.some_or, even]
    rfl

/-- What an event does to the counters. -/
theorem Consistent.even_next (sound : w.plan.Sound w.options) (consistent : s.Consistent w)
    (even : s.Even) (e : Event) :
    (s.next w e).2.Even ∧ (s.next w e).2.site.counters.rejected =
      s.site.counters.rejected + ((s.next w e).1.any Answer.isConflict).toNat := by
  cases e with
  | act a => exact consistent.even_act sound even a
  | note p =>
    have same : (s.note p).site.counters = s.site.counters ∧ (s.note p).job = s.job := by
      unfold note
      cases found : s.job with
      | none => exact ⟨rfl, found⟩
      | some job =>
        obtain ⟨payload, ran, -, -⟩ := Workflow.run_note (s := s.site) job.call.task p
        simp only [does, ran, found, and_self]
    show (s.note p).Even ∧ (s.note p).site.counters.rejected = s.site.counters.rejected
    unfold Even inFlight
    rw [same.1, same.2]
    exact ⟨even, rfl⟩
  | tick now => exact ⟨even, rfl⟩
  | complete outcome =>
    cases found : s.job with
    | none =>
      have next_eq : (s.next w (.complete outcome)).2 = s := by
        show s.complete w outcome = s
        unfold complete
        rw [found]
      rw [next_eq]
      exact ⟨even, rfl⟩
    | some job =>
      rw [next_complete sound consistent found]
      unfold Even inFlight at even ⊢
      rw [found] at even
      obtain ⟨started, ended, rejected⟩ := record_tally s.site.counters (outcome job.call)
      exact ⟨started.trans (even.trans ended.symm), rejected⟩

/-- What the events of a run do to the counters. -/
theorem Consistent.even_after (sound : w.plan.Sound w.options) (consistent : s.Consistent w)
    (even : s.Even) (events : List Event) :
    (s.after w events).Even ∧ (s.after w events).site.counters.rejected =
      s.site.counters.rejected +
        (s.transcript w events).countP fun r ↦ r.1.any Answer.isConflict := by
  induction events generalizing s with
  | nil => exact ⟨even, rfl⟩
  | cons e more ih =>
    obtain ⟨even', rejected⟩ := consistent.even_next sound even e
    obtain ⟨even'', rejected'⟩ := ih (next_follows sound consistent e).1 even'
    refine ⟨even'', rejected'.trans ?_⟩
    show _ = _ + (s.next w e :: (s.next w e).2.transcript w more).countP _
    rw [rejected, List.countP_cons, toNat_eq_ite]
    omega

end Session

/-- What the counters tell of a run of a workflow that is used alone. -/
structure Workflow.Balances [DecidableEq S] [ToString S] (w : Workflow S) : Prop where
  /-- What has started has come to an outcome, or it is in flight. -/
  started : ∀ values now events,
    let s := w.after values now events
    s.site.counters.started = s.site.counters.succeeded + s.site.counters.failed +
      s.site.counters.panicked + s.job.isSome.toNat
  /-- Who was turned away was answered so. -/
  rejected : ∀ values now events,
    (w.after values now events).site.counters.rejected =
      (w.transcript values now events).countP fun r ↦ r.1.any Answer.isConflict

/-- In every session that can be reached the starts are the outcomes and the job in flight, and the
rejections are the actions that met with a conflict. -/
theorem Workflow.balances [DecidableEq S] [ToString S] {w : Workflow S}
    (sound : w.plan.Sound w.options) : w.Balances where
  started values now events :=
    ((Session.start_consistent w values now).even_after sound rfl events).1
  rejected values now events :=
    (((Session.start_consistent w values now).even_after sound rfl events).2).trans
      (Nat.zero_add _)

/-- Whatever happens on any engines, the counters agree with what has become of the operations; and
in every installation and every upgrade what has started has ended or is in flight, and each action
that was turned away was answered so. -/
theorem counters_balance {ι P : Type} [DecidableEq ι] {S : ι → Type} [(i : ι) → DecidableEq (S i)]
    (engines : (i : ι) → Engine (S i)) (now : Timestamp) (payload : P) (options : Options)
    (schema : AppConfigSchema) (titles : PreflightScope → List String) :
    (∀ w, (Fleet.start engines now payload).Steps w → w.Balanced) ∧
      (Workflow.install options schema titles).Balances ∧
        (Workflow.upgrade options schema titles).Balances :=
  ⟨fun _ steps ↦ ((Fleet.start_accounted engines now payload).steps steps).balanced,
    Workflow.balances (InstallState.plan_sound options),
    Workflow.balances (UpgradeState.plan_sound options)⟩

def twinEngines (i : Bool) : Engine Nat :=
  .start i.toNat (.ofList [(1, [0, 2]), (2, [1]), (3, [1])]) 0

/-- An operation on the first engine starts and is given up, another one finds that engine busy, and
the work of one on the second engine panics. -/
theorem twins_balance : ∃ w : Fleet Bool (fun _ ↦ Nat) Unit,
    (Fleet.start twinEngines .epoch ()).Steps w ∧
      w.counters = { started := 2, panicked := 1, rejected := 1 } ∧ w.Balanced := by
  have opened := (Fleet.Steps.refl (w := Fleet.start twinEngines .epoch ())).tail
    (.acquire false ⟨1, 2, 3⟩)
  have refused := opened.tail (.acquire false ⟨1, 2, 3⟩)
  have started := refused.tail (.start (i := false) [] rfl)
  have panicked := started.tail
    (.guarded true ⟨1, 2, 3⟩ (.done (.panicked .other : Outcome Unit)) (.done _))
  have dropped := panicked.tail (.drop (i := false) [] rfl)
  exact ⟨_, dropped, rfl, (counters_balance twinEngines .epoch () ⟨.linux, false, false, false⟩
    default (fun _ ↦ [])).1 _ dropped⟩

end Rollout
