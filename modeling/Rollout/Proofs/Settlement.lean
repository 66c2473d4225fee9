import Rollout.Api.Server
import Rollout.Proofs.Errand
import Rollout.Proofs.MutualExclusion
import Rollout.Proofs.StoreAgreement

/-!
# The status of a task is final before the workflow settles

Visitors of a workflow take turns: they make a request and carry out the job that it leaves behind,
or ask for something, or do what has nothing to do with tasks.  At any moment between their atomic
steps the status of a task is in step with the engine (`StatusInStep`).  If it says that the task is
running, then whoever has entered the running state of the task last has the lock, and the engine is
in this state.  Once the engine has left the state, or the lock is free, the status is the one that
this run has ended with.

`Pool.Tasked` is the invariant.  It relates the errands of the visitors (`Errand`) to the ledger,
the engine and the statuses, and is kept by the turn of any visitor (`Tasked.turn`).
-/

namespace Rollout

variable {S α : Type}

/-! ### Who has entered a state -/

section Entrants

variable [DecidableEq S]

/-- The client that has made the deed, if this was to enter the state. -/
def Deed.entrant? (target : S) (x : Nat × Deed S) : Option Nat :=
  x.2.entered?.bind fun t ↦ if t.target = target then some x.1 else none

/-- The clients that have entered a state, in order. -/
def Ledger.entrants (l : Ledger S) (target : S) : List Nat := l.filterMap (Deed.entrant? target)

theorem Ledger.entrants_snoc (l : Ledger S) (i : Nat) (d : Deed S) (target : S) :
    Ledger.entrants (l ++ [(i, d)]) target =
      l.entrants target ++ (Deed.entrant? target (i, d)).toList := by
  unfold entrants
  rw [List.filterMap_append]
  cases h : Deed.entrant? target (i, d) <;> simp [h]

/-- A deed that does not enter the state adds nobody. -/
theorem Ledger.entrants_snoc_of_other (l : Ledger S) (i : Nat) {d : Deed S} {target : S}
    (other : ∀ t, d.entered? = some t → t.target ≠ target) :
    Ledger.entrants (l ++ [(i, d)]) target = l.entrants target := by
  rw [entrants_snoc]
  unfold Deed.entrant?
  cases made : d.entered? with
  | none => exact List.append_nil _
  | some t =>
    show _ ++ (if t.target = target then some i else none).toList = _
    rw [if_neg (other t made)]
    exact List.append_nil _

end Entrants

/-! ### Steps of an errand -/

namespace Errand

/-- The status that a run which is over has left. -/
def left? : Errand S → Option (Task × StatusRecord)
  | settled _ t r | finished t r => some (t, r)
  | outside | holding _ | running .. | past => none

/-- A request has run the task last: it still does, or the status is the one that it has left. -/
def Accounts (leaves : Task → StatusRecord → Prop) (t : Task) (stages : Stages S) (c : Errand S)
    (s : Site S) : Prop :=
  (∃ lock reported, c = running lock t stages reported) ∨
    ∃ r, c.left? = some (t, r) ∧ s.payload.taskStatus t = r ∧ leaves t r

/-- Between these errands, a task is begun in this state. -/
inductive Begins : Errand S → Errand S → S → Prop
  | intro (lock : Lock) (t : Task) (stages : Stages S) :
      Begins (holding lock) (running lock t stages none) stages.running

variable {leaves : Task → StatusRecord → Prop} {c c' : Errand S} {s s' : Site S} {lock : Lock}

/-- An errand that begins a task has the lock, and goes on to run it. -/
theorem Begins.eq {target : S} (h : Begins c c' target) : ∃ lock t stages,
    c = holding lock ∧ c' = running lock t stages none ∧ stages.running = target := by
  cases h
  exact ⟨_, _, _, rfl, rfl, rfl⟩

theorem Knows.current (knows : c.Knows leaves s) (has : c.lock? = some lock) :
    s.engine.isCurrent lock = true := by
  cases c with
  | holding => exact Option.some.inj has ▸ knows
  | running | settled => exact Option.some.inj has ▸ knows.1
  | outside | finished | past => nomatch has

/-- What a request knows concerns the engine and the statuses, and only while it has the lock. -/
theorem Knows.keep (knows : c.Knows leaves s)
    (keeps : ∀ lock, c.lock? = some lock →
      s'.engine = s.engine ∧ s'.payload.taskStatus = s.payload.taskStatus) :
    c.Knows leaves s' := by
  cases c with
  | holding lock | running lock | settled lock =>
    obtain ⟨engine, statuses⟩ := keeps lock rfl
    simp only [Knows, engine, statuses] at knows ⊢
    exact knows
  | outside | finished | past => trivial

namespace Allows

variable [DecidableEq S] {w : Workflow S} {act : Site S → Site S}

/-- Whoever does not have the lock leaves alone what is locked. -/
theorem undisturbed (allowed : Allows w leaves act s c c') (unlocked : c.lock? = none)
    (held : s.engine.held ≠ none) :
    (act s).engine = s.engine ∧ (act s).payload.taskStatus = s.payload.taskStatus := by
  cases allowed with
  | aside spares keeps => exact ⟨spares s, keeps⟩
  | busy makes keeps => exact ⟨(makes s).trans (congrArg Prod.snd
      (Engine.perform_acquire_busy held)), keeps⟩
  | takes makes keeps free => exact absurd free held
  | enters | releases | begins | works | reports | settles | ends => nomatch unlocked

/-- What a request relies on holds after its own steps. -/
theorem knows (allowed : Allows w leaves act s c c') (knows : c.Knows leaves s) :
    c'.Knows leaves (act s) := by
  cases allowed with
  | aside spares keeps => exact knows.keep fun _ _ ↦ ⟨spares s, keeps⟩
  | busy | releases | ends => trivial
  | takes makes keeps free =>
    show (act s).engine.isCurrent _ = true
    rw [makes s, Engine.perform_acquire_free free]
    exact s.engine.isCurrent_taken
  | enters makes =>
    show (act s).engine.isCurrent _ = true
    rw [makes s]
    exact Engine.isCurrent_perform_transition knows ..
  | @begins lock t stages has may makes keeps can =>
    refine ⟨?_, ?_, nofun⟩
    · rw [makes s]
      exact Engine.isCurrent_perform_transition knows ..
    · rw [makes s]
      simp only [Engine.perform, Engine.transition_ok knows can]
      rfl
  | works spares =>
    obtain ⟨current, running, -⟩ := knows
    rw [← spares s] at current running
    exact ⟨current, running, nofun⟩
  | reports spares keeps told left =>
    obtain ⟨current, running, -⟩ := knows
    rw [← spares s] at current running
    refine ⟨current, running, ?_⟩
    rintro _ ⟨⟩
    exact ⟨told, left⟩
  | settles makes keeps =>
    obtain ⟨current, -, reported⟩ := knows
    obtain ⟨told, left⟩ := reported _ rfl
    refine ⟨?_, ?_, left⟩
    · rw [makes s]
      exact Engine.isCurrent_perform_transition current ..
    · rw [keeps]
      exact told

/-- A lock that a request has after its step it has had before, or it was free. -/
theorem had_or_free (allowed : Allows w leaves act s c c') (has : c'.lock? = some lock) :
    c.lock? = some lock ∨ s.engine.held = none := by
  cases allowed with
  | aside | enters | begins | works | reports | settles => exact .inl has
  | takes makes keeps free => exact .inr free
  | busy | releases | ends => nomatch has

/-- The status of a task is changed only in its run. -/
theorem status_eq (allowed : Allows w leaves act s c c') {t : Task}
    (other : ∀ lock stages, c ≠ running lock t stages none) :
    (act s).payload.taskStatus t = s.payload.taskStatus t := by
  cases allowed with
  | aside _ keeps | busy _ keeps | takes _ keeps | enters _ keeps | releases _ keeps
  | begins _ _ _ keeps | settles _ keeps | ends _ keeps => exact congrFun keeps t
  | works _ keeps | reports _ keeps => exact keeps t (by rintro rfl; exact other _ _ rfl)

/-- Whoever runs a task goes on running it until it reports. -/
theorem goes_on (ended : ∀ t r, leaves t r → r.state ≠ .running) {t : Task} {stages : Stages S}
    (allowed : Allows w leaves act s (running lock t stages none) c')
    (still : ((act s).payload.taskStatus t).state = .running) :
    c' = running lock t stages none := by
  cases allowed with
  | aside | works => rfl
  | reports _ _ told left => exact absurd (told ▸ still) (ended _ _ left)

/-- Whoever runs a task has run it before, or begins it. -/
theorem runs_or_begins {t : Task} {stages : Stages S} {reported : Option StatusRecord}
    (allowed : Allows w leaves act s c (running lock t stages reported)) :
    (∃ reported', c = running lock t stages reported') ∨
      (c = holding lock ∧ reported = none ∧ (.task t, stages) ∈ w.plan.activities w.options ∧
        ∃ r, leaves t r) := by
  cases allowed with
  | aside | works | reports => exact .inl ⟨_, rfl⟩
  | begins has may => exact .inr ⟨rfl, rfl, has, may⟩

/-- Whoever has run a task last accounts for its status after the own steps. -/
theorem accounts (allowed : Allows w leaves act s c c') (knows : c.Knows leaves s) {t : Task}
    {stages : Stages S} (accounts : c.Accounts leaves t stages s) :
    c'.Accounts leaves t stages (act s) := by
  rcases accounts with ⟨lock, reported, rfl⟩ | ⟨r, left, status, leaves_r⟩
  · cases allowed with
    | aside | works | reports => exact .inl ⟨_, _, rfl⟩
    | settles makes keeps =>
      obtain ⟨told, left⟩ := knows.2.2 _ rfl
      exact .inr ⟨_, rfl, (congrFun keeps t).trans told, left⟩
  · cases allowed with
    | aside spares keeps | ends makes keeps =>
      exact .inr ⟨r, left, (congrFun keeps t).trans status, leaves_r⟩
    | busy | takes | enters | releases | begins | works | reports | settles => nomatch left

end Allows

/-! ### What is entered into the ledger -/

variable [DecidableEq S]

/-- What the turn of the client `i` enters into the ledger, whose errand goes from `c` to `c'`. -/
structure Entry (w : Workflow S) (i : Nat) (c c' : Errand S) (l entry : Ledger S) : Prop where
  others : ∀ j, i ≠ j → Ledger.of (l ++ entry) j = l.of j
  own : holder (Ledger.of (l ++ entry) i) = c'.lock?
  entrants : ∀ target, w.plan.Runs w.options target →
    ¬ Begins c c' target ∧ Ledger.entrants (l ++ entry) target = l.entrants target ∨
      Begins c c' target ∧ Ledger.entrants (l ++ entry) target = l.entrants target ++ [i]

variable {w : Workflow S} {i : Nat} {l : Ledger S} {act : Site S → Site S}
  {next : Site S → Proc (Site S) α} {procs : List (Proc (Site S) α)}

theorem Entry.nothing (has : holder (l.of i) = c'.lock?)
    (other : ∀ target, ¬ Begins c c' target) : Entry w i c c' l [] where
  others j _ := by rw [List.append_nil]
  own := by rwa [List.append_nil]
  entrants target _ := .inl ⟨other target, by rw [List.append_nil]⟩

/-- A deed by which no task is begun. -/
theorem Entry.deed {d : Deed S} (has : d.holder (holder (l.of i)) = c'.lock?)
    (entered : ∀ t, d.entered? = some t → ¬ w.plan.Runs w.options t.target)
    (other : ∀ target, ¬ Begins c c' target) : Entry w i c c' l [(i, d)] where
  others j ne := Ledger.of_snoc_ne l ne d
  own := by rwa [Ledger.of_snoc_self, holder_snoc]
  entrants target runs := by
    refine .inl ⟨other target, l.entrants_snoc_of_other i ?_⟩
    rintro t made rfl
    exact entered t made runs

/-- A step that is allowed is a turn, which enters what belongs to the step. -/
theorem Allows.entry {leaves : Task → StatusRecord → Prop}
    (allowed : Allows w leaves act s c c') (knows : c.Knows leaves s)
    (has : holder (l.of i) = c.lock?) (at_i : procs[i]? = some (.step act next)) :
    ∃ entry, Pool.Turn i ⟨s, procs⟩ entry ⟨act s, procs.set i (next s)⟩ ∧
      Entry w i c c' l entry := by
  have transition {lock : Lock} {target : S} (makes : Shared.Makes act (.transition lock target))
      (current : s.engine.isCurrent lock = true)
      (out : holder (l.of i) = c'.lock?) (no_task : ∀ target, ¬ Begins c c' target)
      (other : s.engine.canTransition target = true → ¬ w.plan.Runs w.options target) :
      ∃ entry, Pool.Turn i ⟨s, procs⟩ entry ⟨act s, procs.set i (next s)⟩ ∧
        Entry w i c c' l entry := by
    refine ⟨_, .call at_i makes s, .deed ?_ ?_ no_task⟩
    all_goals
      obtain ⟨d, e', same⟩ : ∃ d e', s.engine.perform (.transition lock target s.now) = (d, e') :=
        ⟨_, _, rfl⟩
      rw [same]
    · cases Engine.performed_of_eq same <;> exact out
    · cases Engine.performed_of_eq same with
      | entered current can =>
        rintro t ⟨⟩
        exact other can
      | forbidden | invalid => rintro t ⟨⟩
  cases allowed with
  | aside spares keeps =>
    refine ⟨[], .aside at_i spares s, .nothing has ?_⟩
    rintro target ⟨⟩
  | works spares | reports spares =>
    refine ⟨[], .aside at_i spares s, .nothing has ?_⟩
    rintro target ⟨⟩
  | busy makes keeps held =>
    have performed := Engine.perform_acquire_busy held
    refine ⟨_, .call at_i makes s, .deed ?_ ?_ ?_⟩
    · rw [performed]
      exact has
    · rw [performed]
      rintro t ⟨⟩
    · rintro target ⟨⟩
  | takes makes keeps free =>
    have performed := Engine.perform_acquire_free free
    refine ⟨_, .call at_i makes s, .deed ?_ ?_ ?_⟩
    · rw [performed]
      rfl
    · rw [performed]
      rintro t ⟨⟩
    · rintro target ⟨⟩
  | releases makes keeps | ends makes keeps =>
    have current := knows.current rfl
    refine ⟨_, .call at_i makes s, .deed ?_ ?_ ?_⟩
    · simp only [Engine.perform, current]
      rfl
    · simp only [Engine.perform, current]
      rintro t ⟨⟩
    · rintro target ⟨⟩
  | enters makes keeps other =>
    refine transition makes knows has ?_ other
    rintro target ⟨⟩
  | settles makes keeps other =>
    refine transition makes knows.1 has ?_ fun _ ↦ other
    rintro target ⟨⟩
  | @begins lock t stages in_plan may makes keeps can =>
    have performed : (s.engine.perform (.transition lock stages.running s.now)).1 =
        .entered lock ⟨s.engine.current, stages.running, s.now⟩ := by
      simp only [Engine.perform, Engine.transition_ok knows can]
    refine ⟨_, .call at_i makes s, fun j ne ↦ Ledger.of_snoc_ne l ne _, ?_, fun target _ ↦ ?_⟩
    · rw [performed, Ledger.of_snoc_self, holder_snoc]
      exact has
    · rw [performed]
      by_cases here : stages.running = target
      · refine .inr ⟨here ▸ .intro lock t stages, ?_⟩
        rw [Ledger.entrants_snoc]
        unfold Deed.entrant?
        simp [Deed.entered?, here]
      · refine .inl ⟨?_, l.entrants_snoc_of_other i ?_⟩
        · rintro ⟨⟩
          exact here rfl
        · rintro _ ⟨⟩
          exact here

end Errand

/-! ### Errands of a pool -/

section Invariant

variable [DecidableEq S]

/-- What the errands of the computations have to do with the ledger, the engine and the statuses. -/
structure Pool.Tasked (w : Workflow S) (leaves : Nat → Task → StatusRecord → Prop)
    (errands : Nat → Errand S) (l : Ledger S) (q : Pool (Site S) α) : Prop where
  follows : ∀ (i : Nat) (p : Proc (Site S) α), q.procs[i]? = some p →
    p.Follows (Errand.discipline w (leaves i)) (fun _ _ ↦ True) (errands i)
  knows : ∀ i, (errands i).Knows (leaves i) q.state
  holds : ∀ i, holder (l.of i) = (errands i).lock?
  alone : ∀ (i j : Nat) (lock lock' : Lock), (errands i).lock? = some lock →
    (errands j).lock? = some lock' → i = j
  runs : ∀ t, (q.state.payload.taskStatus t).state = .running →
    ∃ i lock stages, errands i = .running lock t stages none
  begun : ∀ i lock t stages reported, errands i = .running lock t stages reported →
    (.task t, stages) ∈ w.plan.activities w.options ∧ (∃ r, leaves i t r) ∧
      (l.entrants stages.running).getLast? = some i
  /-- Whoever has entered the running state of a task last accounts for its status. -/
  last : ∀ t stages, (.task t, stages) ∈ w.plan.activities w.options → ∀ i,
    (l.entrants stages.running).getLast? = some i →
      (errands i).Accounts (leaves i) t stages q.state
  fresh : ∀ t stages, (.task t, stages) ∈ w.plan.activities w.options →
    l.entrants stages.running = [] → (q.state.payload.taskStatus t).state = .pending

namespace Pool.Tasked

variable {w : Workflow S} {leaves : Nat → Task → StatusRecord → Prop} {errands : Nat → Errand S}
  {l entry : Ledger S} {s : Site S} {procs : List (Proc (Site S) α)} {i : Nat} {c : Errand S}
  {act : Site S → Site S} {next : Site S → Proc (Site S) α} {q : Pool (Site S) α}

/-- Nobody has done anything yet. -/
theorem start (follows : ∀ (i : Nat) (p : Proc (Site S) α), q.procs[i]? = some p →
      p.Follows (Errand.discipline w (leaves i)) (fun _ _ ↦ True) .outside)
    (pending : ∀ t, (q.state.payload.taskStatus t).state = .pending) :
    q.Tasked w leaves (fun _ ↦ .outside) [] where
  follows := follows
  knows _ := trivial
  holds _ := rfl
  alone _ _ _ _ := nofun
  runs t running := nomatch (pending t).symm.trans running
  begun _ _ _ _ _ := nofun
  last _ _ _ _ := nofun
  fresh t _ _ _ := pending t

section Turn

variable (h : Tasked w leaves errands l ⟨s, procs⟩)
  (allowed : Errand.Allows w (leaves i) act s (errands i) c)

include h allowed

/-- While another client has the lock, nothing happens to the engine and the statuses. -/
theorem undisturbed {j : Nat} (other : j ≠ i) {lock : Lock} (has : (errands j).lock? = some lock) :
    (act s).engine = s.engine ∧ (act s).payload.taskStatus = s.payload.taskStatus := by
  refine allowed.undisturbed ?_ (Engine.held_ne_none ((h.knows j).current has))
  exact Option.eq_none_iff_forall_ne_some.2 fun lock' has' ↦ other (h.alone j i _ _ has has')

/-- Whoever has the lock still knows what it can rely on. -/
theorem knows_update (j : Nat) :
    (Function.update errands i c j).Knows (leaves j) (act s) := by
  by_cases same : j = i
  · subst same
    rw [Function.update_self]
    exact allowed.knows (h.knows j)
  · rw [Function.update_of_ne same]
    exact (h.knows j).keep fun lock has ↦ h.undisturbed allowed same has

/-- No two clients come to have the lock: whoever else has it has had it before, so that it was not
free. -/
theorem alone_update (j k : Nat) (lock lock' : Lock)
    (has : (Function.update errands i c j).lock? = some lock)
    (has' : (Function.update errands i c k).lock? = some lock') : j = k := by
  have other {j : Nat} {lock lock' : Lock} (mine : c.lock? = some lock)
      (has : (errands j).lock? = some lock') : i = j := by
    rcases allowed.had_or_free mine with had | free
    · exact h.alone i j _ _ had has
    · exact absurd free (Engine.held_ne_none ((h.knows j).current has))
  by_cases j_eq : j = i
  · by_cases k_eq : k = i
    · rw [j_eq, k_eq]
    · rw [j_eq, Function.update_self] at has
      rw [Function.update_of_ne k_eq] at has'
      exact j_eq.trans (other has has')
  · rw [Function.update_of_ne j_eq] at has
    by_cases k_eq : k = i
    · rw [k_eq, Function.update_self] at has'
      exact (k_eq.trans (other has' has)).symm
    · rw [Function.update_of_ne k_eq] at has'
      exact h.alone j k _ _ has has'

/-- A task that is told to run is run by somebody. -/
theorem runs_update (ended : ∀ t r, leaves i t r → r.state ≠ .running) (t : Task)
    (running : ((act s).payload.taskStatus t).state = .running) :
    ∃ j lock stages, Function.update errands i c j = .running lock t stages none := by
  by_cases mine : ∃ lock stages, errands i = .running lock t stages none
  · obtain ⟨lock, stages, here⟩ := mine
    rw [here] at allowed
    refine ⟨i, lock, stages, ?_⟩
    rw [Function.update_self]
    exact allowed.goes_on ended running
  · rw [allowed.status_eq fun lock stages here ↦ mine ⟨lock, stages, here⟩] at running
    obtain ⟨j, lock, stages, here⟩ := h.runs t running
    have other : j ≠ i := by
      rintro rfl
      exact mine ⟨lock, stages, here⟩
    exact ⟨j, lock, stages, by rw [Function.update_of_ne other, here]⟩

variable (made : Errand.Entry w i (errands i) c l entry)

include made

/-- Whoever runs a task was the last to enter its running state. -/
theorem begun_update (j : Nat) (lock : Lock) (t : Task) (stages : Stages S)
    (reported : Option StatusRecord)
    (here : Function.update errands i c j = .running lock t stages reported) :
    (.task t, stages) ∈ w.plan.activities w.options ∧ (∃ r, leaves j t r) ∧
      (Ledger.entrants (l ++ entry) stages.running).getLast? = some j := by
  by_cases same : j = i
  · subst same
    rw [Function.update_self] at here
    subst here
    rcases allowed.runs_or_begins with ⟨reported', before⟩ | ⟨before, rfl, has, may⟩
    · obtain ⟨has, may, last⟩ := h.begun j _ _ _ _ before
      rcases made.entrants _ ⟨t, stages, has, rfl⟩ with ⟨-, entrants⟩ | ⟨-, entrants⟩
      · exact ⟨has, may, entrants ▸ last⟩
      · exact ⟨has, may, by rw [entrants, List.getLast?_concat]⟩
    · refine ⟨has, may, ?_⟩
      rcases made.entrants _ ⟨t, stages, has, rfl⟩ with ⟨not, -⟩ | ⟨-, entrants⟩
      · exact absurd (before ▸ .intro lock t stages) not
      · rw [entrants, List.getLast?_concat]
  · rw [Function.update_of_ne same] at here
    obtain ⟨has, may, last⟩ := h.begun j _ _ _ _ here
    refine ⟨has, may, ?_⟩
    rcases made.entrants _ ⟨t, stages, has, rfl⟩ with ⟨-, entrants⟩ | ⟨begins, -⟩
    · exact entrants ▸ last
    · obtain ⟨lock', _, _, holding, -, -⟩ := begins.eq
      exact absurd (h.alone j i lock lock' (by rw [here]; rfl) (by rw [holding]; rfl)) same

/-- The last to have entered the running state of a task accounts for its status. -/
theorem last_update (sound : w.plan.Sound w.options) (t : Task) (stages : Stages S)
    (has : (.task t, stages) ∈ w.plan.activities w.options) (j : Nat)
    (last : (Ledger.entrants (l ++ entry) stages.running).getLast? = some j) :
    (Function.update errands i c j).Accounts (leaves j) t stages (act s) := by
  rcases made.entrants _ ⟨t, stages, has, rfl⟩ with ⟨-, entrants⟩ | ⟨begins, entrants⟩
  · rw [entrants] at last
    have before := h.last t stages has j last
    by_cases same : j = i
    · subst same
      rw [Function.update_self]
      exact allowed.accounts (h.knows j) before
    · rw [Function.update_of_ne same]
      refine before.imp_right ?_
      rintro ⟨r, left, status, leaves_r⟩
      refine ⟨r, left, ?_, leaves_r⟩
      rw [allowed.status_eq fun lock stages' here ↦ ?_]
      · exact status
      · obtain ⟨has', -, last'⟩ := h.begun i _ _ _ _ here
        rw [Plan.stages_unique has' has, last] at last'
        exact same (Option.some.inj last')
  · rw [entrants, List.getLast?_concat] at last
    obtain rfl := Option.some.inj last
    obtain ⟨lock, t', stages', holding, rfl, running⟩ := begins.eq
    rw [Function.update_self]
    have has' : (.task t', stages') ∈ w.plan.activities w.options := by
      rcases allowed.runs_or_begins with ⟨reported, before⟩ | ⟨-, -, has', -⟩
      · nomatch holding.symm.trans before
      · exact has'
    obtain rfl := Activity.task.inj (sound.running_distinct _ has' _ has running)
    obtain rfl := Plan.stages_unique has' has
    exact .inl ⟨lock, none, rfl⟩

/-- A task that nobody has begun is not run. -/
theorem fresh_update (t : Task) (stages : Stages S)
    (has : (.task t, stages) ∈ w.plan.activities w.options)
    (nobody : Ledger.entrants (l ++ entry) stages.running = []) :
    ((act s).payload.taskStatus t).state = .pending := by
  have before : l.entrants stages.running = [] := by
    rcases made.entrants _ ⟨t, stages, has, rfl⟩ with ⟨-, entrants⟩ | ⟨-, entrants⟩
    · exact entrants.symm.trans nobody
    · exact (List.append_eq_nil_iff.1 (entrants.symm.trans nobody)).1
  rw [allowed.status_eq fun lock stages' here ↦ ?_]
  · exact h.fresh t stages has before
  · obtain ⟨has', -, last⟩ := h.begun i _ _ _ _ here
    rw [Plan.stages_unique has' has, before] at last
    nomatch last

end Turn

/-- Whoever's turn it is, everything stays in order. -/
theorem turn (h : Tasked w leaves errands l ⟨s, procs⟩) (sound : w.plan.Sound w.options)
    (ended : ∀ i t r, leaves i t r → r.state ≠ .running)
    (at_i : procs[i]? = some (.step act next)) :
    ∃ entry c, Turn i ⟨s, procs⟩ entry ⟨act s, procs.set i (next s)⟩ ∧
      Tasked w leaves (Function.update errands i c) (l ++ entry)
        ⟨act s, procs.set i (next s)⟩ := by
  obtain ⟨c, allowed, rest⟩ := (h.follows i _ at_i).turn (h.knows i)
  obtain ⟨entry, turn, made⟩ := Errand.Allows.entry allowed (h.knows i) (h.holds i) at_i
  refine ⟨entry, c, turn,
    { follows := ?follows
      knows := h.knows_update allowed
      holds := ?holds
      alone := h.alone_update allowed
      runs := h.runs_update allowed (ended i)
      begun := h.begun_update allowed made
      last := h.last_update allowed made sound
      fresh := h.fresh_update allowed made }⟩
  case follows =>
    intro j p at_j
    rcases getElem?_set_cases at_j with ⟨rfl, rfl⟩ | ⟨other, before⟩
    · rw [Function.update_self]
      exact rest
    · rw [Function.update_of_ne (Ne.symm other)]
      exact h.follows j p before
  case holds =>
    intro j
    by_cases same : j = i
    · rw [same, Function.update_self]
      exact made.own
    · rw [Function.update_of_ne same, made.others j (Ne.symm same)]
      exact h.holds j

/-- Any number of steps leave errands that account for the statuses. -/
theorem steps {p : Pool (Site S) α} (h : p.Tasked w leaves errands [])
    (sound : w.plan.Sound w.options) (ended : ∀ i t r, leaves i t r → r.state ≠ .running)
    (steps : p.Steps q) : ∃ l errands', p.Run l q ∧ q.Tasked w leaves errands' l := by
  induction steps with
  | refl => exact ⟨[], errands, .start, h⟩
  | tail _ step ih =>
    obtain ⟨l, errands', run, tasked⟩ := ih
    obtain ⟨i, act, next, at_i, rfl⟩ := step.exists_turn
    obtain ⟨entry, c, turn, tasked'⟩ := tasked.turn sound ended at_i
    exact ⟨l ++ entry, _, run.turn turn, tasked'⟩

end Pool.Tasked
end Invariant

/-! ### Visitors -/

/-- What comes of the calls of a visitor's job: what is reported meanwhile, and what they return. -/
structure Collaborator where
  reports : Task → List Progress
  outcome : (t : Task) → Outcome t.Value

/-- Who takes turns at a workflow. -/
inductive Visitor (S : Type) where
  /-- It acts, and carries out the job that is left behind. -/
  | request (a : Action) (c : Collaborator)
  | query (q : Api.Query)
  /-- It has nothing to do with tasks. -/
  | bystander (p : Proc (Site S) Unit) (spares : p.SparesTasks)

section Visitors

variable [DecidableEq S] [ToString S]

/-- Carry out the call of a task that has been accepted. -/
def Workflow.work (w : Workflow S) (c : Collaborator) (running : Running S) (t : Task) :
    Proc (Site S) Unit := do
  (c.reports t).forM (note t)
  w.finish running t (c.outcome t)

/-- Carry out the job that an action has left behind, if there is one. -/
def Workflow.carryOut (w : Workflow S) (c : Collaborator) : Option (Job S) → Proc (Site S) Unit
  | none => return
  | some job => w.work c job.running job.call.task

def Visitor.program (w : Workflow S) : Visitor S → Proc (Site S) Unit
  | request a c => do w.carryOut c (← w.act a).2
  | query q => do let _ ← q.body w
  | bystander p _ => p

/-- Visitors that have not done anything yet. -/
def Workflow.visited (w : Workflow S) (visitors : List (Visitor S)) (s : Site S) :
    Pool (Site S) Unit :=
  ⟨s, visitors.map (Visitor.program w)⟩

/-- The visitor with this number runs the task, and may leave the status behind. -/
def Visitor.Leaves (w : Workflow S) (visitors : List (Visitor S)) (i : Nat) (t : Task)
    (r : StatusRecord) : Prop :=
  ∃ ignore c time, visitors[i]? = some (.request (.begin t ignore) c) ∧
    r = w.outcomeStatus time t (c.outcome t)

/-! ### What visitors do beside tasks -/

omit [DecidableEq S] [ToString S] in
/-- A report changes no status. -/
theorem Workflow.note_spares (t : Task) (p : Progress) :
    (note t p : Proc (Site S) Unit).SparesTasks := by
  cases p with
  | line text => cases t <;> exact spares_modifyLog
  | components names | component name state text =>
    cases t with
    | infrastructure =>
      refine Proc.spares_modify (fun _ ↦ rfl) fun s t' _ ↦ ?_
      rcases t' with ⟨⟨⟩⟩ | _ | _ | _ <;> rfl
    | preflights | airgap | deployment => exact .done _

omit [DecidableEq S] in
/-- A query changes nothing. -/
theorem Api.Query.body_spares (w : Workflow S) (q : Query) : (q.body w).SparesTasks := by
  have look {β γ : Type} (f : Stores → β) {k : β → Proc (Site S) γ}
      (rest : ∀ b, (k b).SparesTasks) : (Site.look f >>= k).SparesTasks :=
    (Workflow.spares_look f).bind rest
  have read {β γ : Type} (f : Site S → β) {k : β → Proc (Site S) γ}
      (rest : ∀ b, (k b).SparesTasks) : (Proc.read f >>= k).SparesTasks :=
    (Proc.spares_read f).bind rest
  cases q with
  | health => exact .done _
  | metrics => exact read _ fun _ ↦ .done _
  | state => exact read _ fun _ ↦ read _ fun _ ↦ read _ fun _ ↦ .done _
  | values => exact look _ fun _ ↦ .done _
  | settings => exact look _ fun _ ↦ .done _
  | status a =>
    rcases a with _ | _ | scope | _ | _ | _
    · exact look _ fun _ ↦ .done _
    · exact look _ fun _ ↦ .done _
    · exact look _ fun _ ↦ look _ fun _ ↦ look _ fun _ ↦ .done _
    · exact look _ fun _ ↦ look _ fun _ ↦ look _ fun _ ↦ .done _
    · exact look _ fun _ ↦ look _ fun _ ↦ .done _
    · exact look _ fun _ ↦ look _ fun _ ↦ look _ fun _ ↦ .done _

/-! ### In step -/

/-- The status of a task is in step with the workflow. -/
structure StatusInStep (w : Workflow S) (visitors : List (Visitor S)) (l : Ledger S) (s : Site S)
    (t : Task) (stages : Stages S) : Prop where
  /-- If the status is running, the task is, and whoever runs it has the lock. -/
  running : (s.payload.taskStatus t).state = .running → ∃ i ignore c lock,
    visitors[i]? = some (.request (.begin t ignore) c) ∧
      (l.entrants stages.running).getLast? = some i ∧ s.engine.current = stages.running ∧
      holder (l.of i) = some lock ∧ s.engine.isCurrent lock = true
  /-- When the last run has left its state, or has given back the lock, the status is the one that
  it has ended with. -/
  final : ∀ i, (l.entrants stages.running).getLast? = some i →
    s.engine.current ≠ stages.running ∨ s.engine.held = none → ∃ ignore c time,
      visitors[i]? = some (.request (.begin t ignore) c) ∧
        s.payload.taskStatus t = w.outcomeStatus time t (c.outcome t) ∧
        (t.GoesWell (c.outcome t) → (s.payload.taskStatus t).state = .succeeded) ∧
        (¬ t.GoesWell (c.outcome t) → (s.payload.taskStatus t).state = .failed)
  /-- Before the first run nothing is told. -/
  fresh : l.entrants stages.running = [] → (s.payload.taskStatus t).state = .pending

variable {w : Workflow S} {visitors : List (Visitor S)} {l : Ledger S} {q : Pool (Site S) Unit}
  {errands : Nat → Errand S}

/-- Every visitor keeps to the discipline of errands. -/
theorem Visitor.program_follows (sound : w.plan.Sound w.options)
    (passesAside : w.plan.PassesAside w.options) {i : Nat} {v : Visitor S}
    (at_i : visitors[i]? = some v) :
    (v.program w).Follows (Errand.discipline w (Leaves w visitors i)) (fun _ _ ↦ True)
      .outside := by
  cases v with
  | query q =>
    exact Proc.Spares.follows ((q.body_spares w).bind fun _ ↦ .done _) fun _ ↦ trivial
  | bystander p spares => exact spares.follows fun _ ↦ trivial
  | request a c =>
    refine Proc.Follows.bind (w.act_follows_errand sound passesAside a ?_) ?_
    · rintro t ignore rfl
      exact ⟨_, ignore, c, .epoch, at_i, rfl⟩
    · rintro ⟨answer, job⟩ errand left
      cases job with
      | none => exact .done trivial
      | some job =>
        obtain ⟨t, ignore, rfl, rfl, has, rfl⟩ := left job rfl
        refine (Proc.Spares.then (Proc.Each.forM (fun p ↦ ?_) _) fun _ ↦ ?_ :
          (w.carryOut c (some job)).Follows _ _ _)
        · exact Workflow.note_spares _ p
        · exact w.finish_follows_errand sound job.running _ _ has fun now ↦
            ⟨ignore, c, now, at_i, rfl⟩

/-- What the invariant says of the status of a task. -/
theorem Pool.Tasked.statusInStep (h : q.Tasked w (Visitor.Leaves w visitors) errands l)
    {t : Task} {stages : Stages S} (has : (.task t, stages) ∈ w.plan.activities w.options) :
    StatusInStep w visitors l q.state t stages where
  running running := by
    obtain ⟨i, lock, stages', here⟩ := h.runs t running
    obtain ⟨has', ⟨r, ignore, c, time, at_i, -⟩, last⟩ := h.begun i _ _ _ _ here
    obtain rfl := Plan.stages_unique has' has
    have knows := h.knows i
    have holds := h.holds i
    rw [here] at knows holds
    exact ⟨i, ignore, c, lock, at_i, last, knows.2.1, holds, knows.1⟩
  final i last left := by
    rcases h.last t stages has i last with ⟨lock, reported, here⟩ | ⟨r, -, status, leaves⟩
    · have knows := h.knows i
      rw [here] at knows
      rcases left with left | free
      · exact absurd knows.2.1 left
      · exact absurd free (Engine.held_ne_none knows.1)
    · obtain ⟨ignore, c, time, at_i, rfl⟩ := leaves
      rw [status]
      exact ⟨ignore, c, time, at_i, rfl, w.outcomeStatus_state time⟩
  fresh := h.fresh t stages has

/-- However the steps of visitors are interleaved, the statuses of all tasks are in step with the
workflow. -/
def Workflow.StatusesInStep (w : Workflow S) : Prop :=
  ∀ (values : Option ConfigValues) (now : Timestamp) (visitors : List (Visitor S))
    (q : Pool (Site S) Unit), (w.visited visitors (w.start values now)).Steps q →
    ∃ l, (w.visited visitors (w.start values now)).Run l q ∧
      ∀ t stages, (.task t, stages) ∈ w.plan.activities w.options →
        StatusInStep w visitors l q.state t stages

/-- If no task runs where failed checks are passed over, statuses are in step with the state at
every instant. -/
theorem Workflow.statusesInStep (sound : w.plan.Sound w.options)
    (passesAside : w.plan.PassesAside w.options) : w.StatusesInStep := by
  intro values now visitors q steps
  have start : (w.visited visitors (w.start values now)).Tasked w (Visitor.Leaves w visitors)
      (fun _ ↦ .outside) [] := by
    refine .start (fun i p at_i ↦ ?_) fun t ↦ ?_
    · obtain ⟨v, found, rfl⟩ := Option.map_eq_some_iff.1 (List.getElem?_map ▸ at_i)
      exact v.program_follows sound passesAside found
    · rcases t with ⟨⟨⟩⟩ | _ | _ | _ <;> rfl
  obtain ⟨l, errands, run, tasked⟩ := start.steps sound (by
    rintro i t _ ⟨ignore, c, time, -, rfl⟩
    exact w.outcomeStatus_ne_running time t _) steps
  exact ⟨l, run, fun t stages has ↦ tasked.statusInStep has⟩

end Visitors

/-! ### Both workflows -/

/-- No task of an installation runs where failed checks are passed over. -/
theorem InstallState.plan_passesAside (o : Options) : InstallState.plan.PassesAside o := by
  obtain ⟨⟨⟩, ⟨⟩, ⟨⟩, ⟨⟩⟩ := o
  all_goals
    unfold Plan.PassesAside
    decide

theorem UpgradeState.plan_passesAside (o : Options) : UpgradeState.plan.PassesAside o := by
  obtain ⟨⟨⟩, ⟨⟩, ⟨⟩, ⟨⟩⟩ := o
  all_goals
    unfold Plan.PassesAside
    decide

/-- The status of a task of an installation or an upgrade is running only while the task is, and
final before the workflow settles. -/
theorem statuses_in_step (options : Options) (schema : AppConfigSchema)
    (titles : PreflightScope → List String) :
    (Workflow.install options schema titles).StatusesInStep ∧
      (Workflow.upgrade options schema titles).StatusesInStep :=
  ⟨Workflow.statusesInStep (InstallState.plan_sound options)
      (InstallState.plan_passesAside options),
    Workflow.statusesInStep (UpgradeState.plan_sound options)
      (UpgradeState.plan_passesAside options)⟩

def failingCheck : Collaborator where
  reports _ := []
  outcome
    | .preflights _ => .returned ({ fail := [{ title := "disk" }] } : PreflightOutput)
    | .infrastructure | .airgap => .returned ()
    | .deployment => .returned ({} : AppRelease)

def plainUpgrade : Workflow UpgradeState := .upgrade { target := .kubernetes } {} fun _ ↦ []

/-- The first visitor configures the application, the second one has it checked, and the third one
would like to deploy it. -/
def checkingVisitors : List (Visitor UpgradeState) :=
  [.request (.patchValues .empty) failingCheck,
    .request (.begin (.preflights .app) false) failingCheck,
    .request (.begin .deployment true) failingCheck]

/-- The second visitor has made so many steps, and the third one has been refused. -/
def checkingUpgrade (steps : Nat) : Pool (Site UpgradeState) Unit :=
  (plainUpgrade.visited checkingVisitors (plainUpgrade.start none .epoch)).after
    (List.replicate 11 0 ++ List.replicate steps 1 ++ [2, 2])

/-- The checks are running, and when they have settled the lock is not free yet. -/
theorem failing_check_in_step :
    (∃ l lock, (plainUpgrade.visited checkingVisitors (plainUpgrade.start none .epoch)).Run l
        (checkingUpgrade 9) ∧ (l.entrants .appPreflightsRunning).getLast? = some 1 ∧
      holder (l.of 1) = some lock ∧
      ((checkingUpgrade 9).state.payload.taskStatus (.preflights .app)).state = .running) ∧
    ∃ l, (plainUpgrade.visited checkingVisitors (plainUpgrade.start none .epoch)).Run l
        (checkingUpgrade 13) ∧ (l.entrants .appPreflightsRunning).getLast? = some 1 ∧
      (checkingUpgrade 13).state.engine.isLocked = true ∧
      ((checkingUpgrade 13).state.payload.taskStatus (.preflights .app)).state = .failed := by
  obtain ⟨-, upgrades⟩ := statuses_in_step { target := .kubernetes } {} fun _ ↦ []
  have checks : (.task (.preflights .app), ⟨.appPreflightsRunning, .appPreflightsSucceeded,
      .appPreflightsExecutionFailed⟩) ∈ plainUpgrade.plan.activities plainUpgrade.options := by
    decide
  have steps (n : Nat) := (Pool.Steps.refl (plainUpgrade.visited checkingVisitors
    (plainUpgrade.start none .epoch))).after (List.replicate 11 0 ++ List.replicate n 1 ++ [2, 2])
  have second {i : Nat} {ignore : Bool} {c : Collaborator}
      (at_i : checkingVisitors[i]? = some (.request (.begin (.preflights .app) ignore) c)) :
      i = 1 := by
    match i with
    | 0 | 2 => nomatch at_i
    | 1 => rfl
    | _ + 3 => nomatch at_i
  constructor
  · obtain ⟨l, run, inStep⟩ := upgrades none .epoch checkingVisitors (checkingUpgrade 9) (steps 9)
    obtain ⟨i, ignore, c, lock, at_i, last, -, has, -⟩ := (inStep _ _ checks).running rfl
    obtain rfl := second at_i
    exact ⟨l, lock, run, last, has, rfl⟩
  · obtain ⟨l, run, inStep⟩ := upgrades none .epoch checkingVisitors (checkingUpgrade 13) (steps 13)
    have failed : ((checkingUpgrade 13).state.payload.taskStatus (.preflights .app)).state =
      .failed := rfl
    cases last : (l.entrants .appPreflightsRunning).getLast? with
    | none =>
      have nobody := List.getLast?_eq_none_iff.1 last
      nomatch failed.symm.trans ((inStep _ _ checks).fresh nobody)
    | some i =>
      obtain ⟨ignore, c, time, at_i, -⟩ := (inStep _ _ checks).final i last (.inl nofun)
      obtain rfl := second at_i
      exact ⟨l, run, last, rfl, failed⟩

end Rollout
