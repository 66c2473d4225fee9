import Rollout.Proofs.Ownership

/-!
# Every operation settles

A guarded operation can come to its end in many ways.  It is given up before it starts, its start is
refused, it is aborted in the middle of its work, or its work returns, fails or panics.  `Life`
gives all that a client can do with an operation, and `Life.Exit` says for each way what the
operation answers and in which state it wants to settle.  In the end the lock is free, and the
engine is in the state wanted if the table has an edge to it, else where it was (`Shared.Closed`).

The table, the states of the operation and the site are arbitrary, and so is the work, which may
itself make calls on the engine.  It only does not have the lock of its own operation
(`Proc.Lacks`).  The same goes for whatever others do in the meantime, which may be counted to the
work.
-/

namespace Rollout

variable {S P α β : Type}

/-! ### Work without the lock -/

/-- A call with another lock, or with none, changes nothing as long as `lock` is the current one. -/
theorem Engine.perform_other [DecidableEq S] {e : Engine S} {lock : Lock}
    (current : e.isCurrent lock = true) {c : EngineCall S} (other : c.lock? ≠ some lock) :
    (e.perform c).2 = e := by
  have alone {lock' : Lock} (current' : e.isCurrent lock' = true) : lock' = lock := by
    obtain ⟨engine_eq, held⟩ := isCurrent_iff.1 current
    obtain ⟨engine_eq', held'⟩ := isCurrent_iff.1 current'
    have generation_eq : lock.generation = lock'.generation :=
      Option.some.inj (held.symm.trans held')
    cases lock
    cases lock'
    simp_all
  obtain ⟨d, e', same⟩ : ∃ d e', e.perform c = (d, e') := ⟨_, _, rfl⟩
  rw [same]
  cases performed_of_eq same with
  | acquired free => exact absurd free (held_ne_none current)
  | busy | forbidden | invalid | ignored => rfl
  | entered current' | released current' =>
    exact absurd (congrArg some (alone current')) other

namespace Proc

/-- Only the first steps are made. -/
def cut {σ : Type} : Nat → Proc σ α → Proc σ Unit
  | 0, _ => done ()
  | _ + 1, done _ => done ()
  | n + 1, step act next => step act fun s ↦ (next s).cut n

/-- The computation does not have `lock`: as long as this is the current one, nothing that the
computation does changes the engine. -/
inductive Lacks (lock : Lock) : Proc (Shared S P) α → Prop where
  | done (a : α) : Lacks lock (.done a)
  | step {act : Shared S P → Shared S P} {next : Shared S P → Proc (Shared S P) α}
      (spares : ∀ s, s.engine.isCurrent lock = true → (act s).engine = s.engine)
      (rest : ∀ s, s.engine.isCurrent lock = true → Lacks lock (next s)) :
      Lacks lock (.step act next)

variable {lock : Lock} {p : Proc (Shared S P) α} {s t : Shared S P}

theorem Aside.lacks (h : p.Aside) (lock : Lock) : p.Lacks lock := by
  induction h with
  | done a => exact .done a
  | step spares _ ih => exact .step (fun s _ ↦ spares s) fun s _ ↦ ih s

/-- Whoever does not have the lock may make calls with other locks, or try to get it. -/
theorem Lacks.call [DecidableEq S] {act : Shared S P → Shared S P}
    {next : Shared S P → Proc (Shared S P) α} {c : Timestamp → EngineCall S}
    (makes : Shared.Makes act c) (other : ∀ now, (c now).lock? ≠ some lock)
    (rest : ∀ s, s.engine.isCurrent lock = true → (next s).Lacks lock) :
    (Proc.step act next).Lacks lock :=
  .step (fun s current ↦ (makes s).trans (Engine.perform_other current (other s.now))) rest

theorem Lacks.bind {k : α → Proc (Shared S P) β} (h : p.Lacks lock)
    (rest : ∀ a, (k a).Lacks lock) : (p >>= k).Lacks lock := by
  show (p.bind k).Lacks lock
  induction h with
  | done a => exact rest a
  | step spares _ ih => exact .step spares ih

/-- A computation without the lock does not get it by being given up. -/
theorem Lacks.cut (h : p.Lacks lock) (n : Nat) : (p.cut n).Lacks lock := by
  induction h generalizing n with
  | done a => cases n <;> exact .done ()
  | step spares _ ih =>
    cases n with
    | zero => exact .done ()
    | succ n => exact .step spares fun s current ↦ ih s current n

/-- Wherever a computation without the lock comes by, the engine is as it was. -/
theorem Lacks.engine_eq (h : p.Lacks lock) (current : s.engine.isCurrent lock = true)
    (passes : p.Passes s t) : t.engine = s.engine := by
  induction h generalizing s with
  | done =>
    cases passes
    rfl
  | @step act next spares _ ih =>
    cases passes with
    | start => rfl
    | step rest =>
      have same := spares s current
      rw [← same]
      exact ih s current (same.symm ▸ current) rest

/-- Without the lock nothing is done to an engine that is locked. -/
theorem Lacks.engine_run (h : p.Lacks lock) (current : s.engine.isCurrent lock = true) :
    (p.run s).2.engine = s.engine := h.engine_eq current (p.passes_run s)

/-- Wherever the computation comes by, the engine is locked and in this state. -/
def Sees (p : Proc (Shared S P) α) (s : Shared S P) (state : S) : Prop :=
  ∀ t, p.Passes s t → t.engine.current = state ∧ t.engine.isLocked = true

/-- A computation without the lock comes by a locked engine in one state throughout. -/
theorem Lacks.sees (h : p.Lacks lock) (current : s.engine.isCurrent lock = true) :
    p.Sees s s.engine.current := by
  intro t passes
  rw [h.engine_eq current passes]
  exact ⟨rfl, Option.isSome_iff_ne_none.2 (Engine.held_ne_none current)⟩

end Proc

/-! ### Lives of operations -/

/-- What becomes of an operation that has entered its running state. -/
inductive Course (S P α : Type) where
  /-- It is given up after so many steps of its work. -/
  | abort (work : Proc (Shared S P) (Outcome (α × Option S))) (steps : Nat)
  | run (work : Proc (Shared S P) (Outcome (α × Option S)))
    (report : Except (OperationError S) α → Proc (Shared S P) Unit)

/-- The work and the report do not have the lock. -/
def Course.Lacks (lock : Lock) : Course S P α → Prop
  | abort work _ => work.Lacks lock
  | run work report => work.Lacks lock ∧ ∀ result, (report result).Lacks lock

/-- What a client does with an operation. -/
structure Life (S P α : Type) where
  stages : Stages S
  /-- The states that it tries to enter before the operation starts. -/
  extras : List S := []
  /-- Nothing, if the operation is given up before it starts. -/
  course : Option (Course S P α)

/-- What a client is answered: for each state that it tried to enter, and in the end, unless it has
given the operation up. -/
abbrev Life.Answer (S α : Type) :=
  List (Except (OperationError S) Unit) × Option (Except (OperationError S) α)

/-- An operation that consists of its work only. -/
def Life.once (stages : Stages S) (work : Proc (Shared S P) (Outcome α)) : Life S P α where
  stages := stages
  course := some (.run (do return (← work).map (·, none)) fun _ ↦ pure ())

section Programs

variable [DecidableEq S]

/-- Try to enter states, one after the other. -/
def Guarded.attempt (g : Guarded S) :
    List S → Proc (Shared S P) (List (Except (OperationError S) Unit))
  | [] => return []
  | target :: more => do
    let result ← g.transition target
    return result :: (← g.attempt more)

def Course.program (r : Running S) :
    Course S P α → Proc (Shared S P) (Option (Except (OperationError S) α))
  | abort work steps => do
    work.cut steps
    r.drop
    return none
  | run work report => return some (← r.run work report)

def Life.program (l : Life S P α) : Proc (Shared S P) (Life.Answer S α) := do
  match ← Guarded.acquire l.stages with
  | .error e => return ([], some (.error e))
  | .ok g =>
    let tried ← g.attempt l.extras
    match l.course with
    | none =>
      g.drop
      return (tried, none)
    | some course =>
      match ← g.start with
      | .error e => return (tried, some (.error e))
      | .ok r => return (tried, ← course.program r)

end Programs

/-! ### Ways to the end -/

def Shared.started (s : Shared S P) (stages : Stages S) : Shared S P :=
  { s with
    engine := s.engine.moved stages.running s.now
    counters := s.counters.record .started }

def Shared.reported (s : Shared S P) (outcome : Outcome (α × Option S))
    (report : Except (OperationError S) α → Proc (Shared S P) Unit) : Shared S P :=
  ((report (outcome.map Prod.fst).result).run
    { s with counters := s.counters.record outcome.tally }).2

variable [DecidableEq S]

/-- The answers to the attempts to enter states, and the engine after them. -/
inductive Engine.Tries (now : Timestamp) :
    Engine S → List S → List (Except (OperationError S) Unit) → Engine S → Prop
  | none (e : Engine S) : Tries now e [] [] e
  | made {e e' : Engine S} {target : S} {more : List S}
      {tried : List (Except (OperationError S) Unit)} (can : e.canTransition target = true)
      (rest : Tries now (e.moved target now) more tried e') :
      Tries now e (target :: more) (.ok () :: tried) e'
  | refused {e e' : Engine S} {target : S} {more : List S}
      {tried : List (Except (OperationError S) Unit)} (cannot : e.canTransition target = false)
      (rest : Tries now e more tried e') :
      Tries now e (target :: more)
        (.error (.engine (.invalidTransition e.current target)) :: tried) e'

/-- The end of an operation that holds the lock at `s`: the site at which it ends, the state in
which it wants to settle, and its result. -/
inductive Life.Exit (stages : Stages S) (s : Shared S P) :
    Option (Course S P α) → Shared S P → S → Option (Except (OperationError S) α) → Prop
  | unstarted : Life.Exit stages s none s stages.failed none
  /-- Neither the work nor the report are begun. -/
  | refused (course : Course S P α) (cannot : s.engine.canTransition stages.running = false) :
      Life.Exit stages s (some course) { s with counters := s.counters.record .rejected }
        stages.failed
        (some (.error (.engine (.invalidTransition s.engine.current stages.running))))
  | aborted {work : Proc (Shared S P) (Outcome (α × Option S))} (steps : Nat)
      (can : s.engine.canTransition stages.running = true)
      (works : (work.cut steps).Sees (s.started stages) stages.running) :
      Life.Exit stages s (some (.abort work steps)) ((work.cut steps).run (s.started stages)).2
        stages.failed none
  | returned {work : Proc (Shared S P) (Outcome (α × Option S))}
      {report : Except (OperationError S) α → Proc (Shared S P) Unit} {value : α}
      {settle : Option S} {t : Shared S P} (can : s.engine.canTransition stages.running = true)
      (works : work.Sees (s.started stages) stages.running)
      (worked : work.run (s.started stages) = (.returned (value, settle), t))
      (reports : (report (.ok value)).Sees { t with counters := t.counters.record .succeeded }
        stages.running) :
      Life.Exit stages s (some (.run work report)) (t.reported (.returned (value, settle)) report)
        (settle.getD stages.succeeded) (some (.ok value))
  | failed {work : Proc (Shared S P) (Outcome (α × Option S))}
      {report : Except (OperationError S) α → Proc (Shared S P) Unit} {f : Failure}
      {t : Shared S P} (can : s.engine.canTransition stages.running = true)
      (works : work.Sees (s.started stages) stages.running)
      (worked : work.run (s.started stages) = (.failed f, t))
      (reports : (report (.error (.failed f))).Sees
        { t with counters := t.counters.record .failed } stages.running) :
      Life.Exit stages s (some (.run work report)) (t.reported (.failed f) report) stages.failed
        (some (.error (.failed f)))
  | panicked {work : Proc (Shared S P) (Outcome (α × Option S))}
      {report : Except (OperationError S) α → Proc (Shared S P) Unit} {p : PanicPayload}
      {t : Shared S P} (can : s.engine.canTransition stages.running = true)
      (works : work.Sees (s.started stages) stages.running)
      (worked : work.run (s.started stages) = (.panicked p, t))
      (reports : (report (.error (.panicked p.message))).Sees
        { t with counters := t.counters.record .panicked } stages.running) :
      Life.Exit stages s (some (.run work report)) (t.reported (.panicked p) report) stages.failed
        (some (.error (.panicked p.message)))

/-- An operation that ended at `t` has settled in `target` if the table allows that, and has given
the lock back. -/
structure Shared.Closed (t : Shared S P) (target : S) (s : Shared S P) : Prop where
  free : s.engine.isLocked = false
  current : s.engine.current =
    if t.engine.table.allows t.engine.current target then target else t.engine.current
  /-- Nothing else is changed. -/
  beside : s = { t with engine := s.engine }

/-! ### Runs -/

def Shared.finalized (t : Shared S P) (target : S) : Shared S P :=
  { t with engine := (t.engine.settled target t.now).freed }

/-- The finalizer closes the operation: the site is as it should be at its end. -/
theorem Shared.closed_finalized (t : Shared S P) (target : S) :
    t.Closed target (t.finalized target) where
  free := rfl
  current := by
    show (t.engine.settled target t.now).current = _
    unfold Engine.settled
    split
    · rename_i can
      exact (if_pos can).symm
    · rename_i cannot
      exact (if_neg cannot).symm
  beside := rfl

/-- Transitions before the start change the engine only, and leave the lock current. -/
theorem Guarded.run_attempt (g : Guarded S) {s : Shared S P}
    (holds : s.engine.isCurrent g.lock = true) (targets : List S) :
    ∃ tried e, (g.attempt targets).run s = (tried, { s with engine := e }) ∧
      s.engine.Tries s.now targets tried e ∧ e.isCurrent g.lock = true := by
  induction targets generalizing s with
  | nil => exact ⟨[], s.engine, rfl, .none s.engine, holds⟩
  | cons target more ih =>
    unfold Guarded.attempt
    simp only [Proc.run_bind, Proc.run_pure]
    cases can : s.engine.canTransition target with
    | true =>
      have moved : (s.engine.moved target s.now).isCurrent g.lock = true := holds
      obtain ⟨tried, e, ran, tries, holds'⟩ :=
        ih (s := { s with engine := s.engine.moved target s.now }) moved
      rw [run_transition_ok holds can, ran]
      exact ⟨_, e, rfl, .made can tries, holds'⟩
    | false =>
      obtain ⟨tried, e, ran, tries, holds'⟩ := ih holds
      rw [run_transition_refused holds can, ran]
      exact ⟨_, e, rfl, .refused can tries, holds'⟩

section Running

variable {r : Running S} {s : Shared S P} (holds : s.engine.isCurrent r.lock = true)

include holds

/-- An operation that is aborted settles as failed. -/
theorem Course.run_abort {work : Proc (Shared S P) (Outcome (α × Option S))}
    (lacks : work.Lacks r.lock) (steps : Nat) :
    ((Course.abort work steps).program r).run s =
      (none, ((work.cut steps).run s).2.finalized r.stages.failed) := by
  have holds' : ((work.cut steps).run s).2.engine.isCurrent r.lock = true := by
    rw [(lacks.cut steps).engine_run holds]
    exact holds
  unfold Course.program Running.drop
  simp only [Proc.run_bind, Proc.run_pure]
  rw [Shared.run_finalize holds']
  rfl

/-- An operation that has done its work reports and settles. -/
theorem Course.run_run {work : Proc (Shared S P) (Outcome (α × Option S))}
    {report : Except (OperationError S) α → Proc (Shared S P) Unit} (lacks : work.Lacks r.lock)
    (reports : ∀ result, (report result).Lacks r.lock) {outcome : Outcome (α × Option S)}
    {t : Shared S P} (worked : work.run s = (outcome, t)) :
    t.engine = s.engine ∧
      ((Course.run work report).program r).run s = (some (outcome.map Prod.fst).result,
        (t.reported outcome report).finalized (r.settledState outcome)) := by
  have same : t.engine = s.engine := by
    have := lacks.engine_run holds
    rwa [worked] at this
  have holds' : (t.reported outcome report).engine.isCurrent r.lock = true := by
    have holds_t : t.engine.isCurrent r.lock = true := same ▸ holds
    unfold Shared.reported
    rw [(reports _).engine_run (s := { t with counters := t.counters.record outcome.tally })
      holds_t]
    exact holds_t
  refine ⟨same, ?_⟩
  unfold Course.program Running.run Running.conclude
  simp only [Proc.run_bind, Proc.run_pure, worked, Shared.run_tally]
  rw [show ((report (outcome.map Prod.fst).result).run
    { t with counters := t.counters.record outcome.tally }).2 = t.reported outcome report from rfl,
    Shared.run_finalize holds']
  rfl

end Running

/-- Whatever is done with an operation that has started, it comes to one of the ends. -/
theorem Course.exit {stages : Stages S} {lock : Lock} {s : Shared S P}
    (holds : s.engine.isCurrent lock = true)
    (can : s.engine.canTransition stages.running = true) {course : Course S P α}
    (lacks : course.Lacks lock) :
    ∃ t target result, Life.Exit stages s (some course) t target result ∧
      (course.program ⟨lock, stages⟩).run (s.started stages) = (result, t.finalized target) := by
  have holds' : (s.started stages).engine.isCurrent lock = true := holds
  cases course with
  | abort work steps =>
    refine ⟨_, _, _, .aborted steps can ?_, run_abort (r := ⟨lock, stages⟩) holds' lacks steps⟩
    exact (Proc.Lacks.cut lacks steps).sees holds'
  | run work report =>
    obtain ⟨lacks, reports⟩ := lacks
    obtain ⟨outcome, t, worked⟩ : ∃ outcome t, work.run (s.started stages) = (outcome, t) :=
      ⟨_, _, rfl⟩
    obtain ⟨same, ran⟩ := run_run (r := ⟨lock, stages⟩) holds' lacks reports worked
    have works : work.Sees (s.started stages) stages.running := lacks.sees holds'
    have tells (result : Except (OperationError S) α) (tally : Tally) :
        (report result).Sees { t with counters := t.counters.record tally } stages.running := by
      have holds_t : t.engine.isCurrent lock = true := same ▸ holds'
      have current : t.engine.current = stages.running := by
        rw [same]
        rfl
      rw [← current]
      exact (reports result).sees (s := { t with counters := t.counters.record tally }) holds_t
    cases outcome with
    | returned value =>
      obtain ⟨value, settle⟩ := value
      exact ⟨_, _, _, .returned can works worked (tells _ _), ran⟩
    | failed f => exact ⟨_, _, _, .failed can works worked (tells _ _), ran⟩
    | panicked p => exact ⟨_, _, _, .panicked can works worked (tells _ _), ran⟩

/-- An operation that finds the lock out is refused, and counted as rejected. -/
theorem Life.run_busy (l : Life S P α) {s : Shared S P} (held : s.engine.held ≠ none) :
    l.program.run s = (([], some (.error (.engine .busy))),
      { s with counters := s.counters.record .rejected }) := by
  unfold program
  rw [Proc.run_bind, Guarded.run_acquire_busy _ held]
  rfl

/-- An operation that has got the lock comes to one of the ends. -/
theorem Life.run_free (l : Life S P α) {s : Shared S P} (free : s.engine.held = none)
    (lacks : ∀ course, l.course = some course → course.Lacks s.engine.nextLock) :
    ∃ tried e t target result, s.engine.taken.Tries s.now l.extras tried e ∧
      Life.Exit l.stages { s with engine := e } l.course t target result ∧
      l.program.run s = ((tried, result), t.finalized target) := by
  have taken : s.engine.taken.isCurrent s.engine.nextLock = true := s.engine.isCurrent_taken
  obtain ⟨tried, e, attempted, tries, holds⟩ := Guarded.run_attempt
    (s := { s with engine := s.engine.taken }) ⟨s.engine.nextLock, l.stages⟩ taken l.extras
  refine ⟨tried, e, ?_⟩
  unfold program
  rw [Proc.run_bind, Guarded.run_acquire_free _ free]
  simp only [Proc.run_bind, attempted]
  cases found : l.course with
  | none =>
    refine ⟨_, _, none, tries, .unstarted, ?_⟩
    simp only [Proc.run_bind, Proc.run_pure, Guarded.drop]
    rw [Shared.run_finalize (s := { s with engine := e }) holds]
    rfl
  | some course =>
    simp only [Proc.run_bind]
    cases can : e.canTransition l.stages.running with
    | false =>
      refine ⟨_, _, _, tries, .refused course can, ?_⟩
      rw [Guarded.run_start_refused (s := { s with engine := e }) holds can]
      rfl
    | true =>
      obtain ⟨t, target, result, exit, ran⟩ :=
        Course.exit (s := { s with engine := e }) holds can (lacks course found)
      refine ⟨t, target, result, tries, exit, ?_⟩
      rw [Guarded.run_start_ok (s := { s with engine := e }) holds can]
      simp only [Proc.run_bind, Proc.run_pure]
      exact congrArg (fun x ↦ ((tried, x.1), x.2)) ran

/-- The single call is the operation in one piece. -/
theorem run_runGuarded (stages : Stages S) (work : Proc (Shared S P) (Outcome α))
    (s : Shared S P) :
    ((Life.once stages work).program.run s).1.2 = some ((runGuarded stages work).run s).1 ∧
      ((Life.once stages work).program.run s).2 = ((runGuarded stages work).run s).2 := by
  unfold Life.program Life.once runGuarded Guarded.begin Course.program Running.run
  simp only [Proc.run_bind, Guarded.attempt]
  obtain ⟨⟨e⟩ | ⟨g⟩, s⟩ := (Guarded.acquire stages).run s
  · exact ⟨rfl, rfl⟩
  · simp only [Proc.run_bind, Proc.run_pure]
    obtain ⟨⟨e⟩ | ⟨r⟩, s⟩ := g.start.run s
    · exact ⟨rfl, rfl⟩
    · simp only [Proc.run_bind, Proc.run_pure, and_self]

/-! ### The statement -/

/-- How the life of an operation ends that comes to `s`. -/
structure Life.Settles (l : Life S P α) (s : Shared S P) : Prop where
  /-- If the lock is out the operation is counted as rejected, and that is all. -/
  busy : s.engine.held ≠ none → l.program.run s = (([], some (.error (.engine .busy))),
    { s with counters := s.counters.record .rejected })
  /-- Otherwise it settles and gives the lock back. -/
  free : s.engine.held = none → ∃ tried e t target result,
    s.engine.taken.Tries s.now l.extras tried e ∧
      Life.Exit l.stages { s with engine := e } l.course t target result ∧
      (l.program.run s).1 = (tried, result) ∧ t.Closed target (l.program.run s).2
  /-- The single call does the same. -/
  once : ∀ work, l = .once l.stages work →
    (l.program.run s).1.2 = some ((runGuarded l.stages work).run s).1 ∧
      (l.program.run s).2 = ((runGuarded l.stages work).run s).2

/-- Whatever is done with an operation, and wherever it starts, it settles and gives the lock
back. -/
theorem exit_settles (l : Life S P α) (s : Shared S P)
    (lacks : ∀ course, l.course = some course → course.Lacks s.engine.nextLock) :
    l.Settles s where
  busy := l.run_busy
  free free := by
    obtain ⟨tried, e, t, target, result, tries, exit, ran⟩ := l.run_free free lacks
    refine ⟨tried, e, t, target, result, tries, exit, ?_, ?_⟩
    · rw [ran]
    · rw [ran]
      exact t.closed_finalized target
  once work is := by
    rw [is]
    exact run_runGuarded l.stages work s

/-! ### An operation within an operation -/

/-- An operation on the same engine does not get the lock. -/
theorem lacks_runGuarded (lock : Lock) (stages : Stages S)
    (work : Proc (Shared S P) (Outcome α)) : (runGuarded stages work).Lacks lock := by
  refine .call (c := fun _ ↦ .acquire) (fun s ↦ ?_) (fun _ ↦ nofun) fun s current ↦ ?_
  · simp only [Engine.perform]
    cases s.engine.acquire <;> rfl
  · simp only [Engine.acquire_busy (Engine.held_ne_none current)]
    exact .done _

/-- The work is another operation, and fails with it. -/
def nestedWork : Proc (Shared Nat Unit) (Outcome (Unit × Option Nat)) := do
  match ← runGuarded ⟨2, 3, 4⟩ (pure (.returned ())) with
  | .ok _ => return .returned ((), none)
  | .error e => return .failed (.message [e.message])

/-- Two states are tried before the operation starts, of which only the first can be entered. -/
def nestedLife : Life Nat Unit Unit where
  stages := ⟨2, 3, 4⟩
  extras := [1, 9]
  course := some (.run nestedWork fun _ ↦ pure ())

def nestedTable : TransitionTable Nat := .ofList [(1, [0]), (2, [1]), (3, [2]), (4, [2])]

/-- The inner operation finds the lock taken, so the outer one settles as failed. -/
theorem nested_operation_settles :
    nestedLife.Settles ⟨.start 0 nestedTable 0, {}, .epoch, ()⟩ ∧
      (nestedLife.program.run ⟨.start 0 nestedTable 0, {}, .epoch, ()⟩).2.engine.current = 4 ∧
      (nestedLife.program.run ⟨.start 0 nestedTable 0, {}, .epoch, ()⟩).2.engine.isLocked =
        false := by
  refine ⟨exit_settles nestedLife _ ?_, rfl, rfl⟩
  rintro _ ⟨⟩
  refine ⟨(lacks_runGuarded _ _ _).bind ?_, fun _ ↦ (Proc.Aside.done ()).lacks _⟩
  rintro (e | u) <;> exact .done _

end Rollout
