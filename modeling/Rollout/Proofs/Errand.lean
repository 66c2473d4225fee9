import Rollout.Proofs.Configuration

/-!
# Errands

A request that begins a task takes the lock, enters the running state of the task, works, marks how
the task came out, settles, and gives the lock back, in this order.  An `Errand` tells how far a
request has got, and what it can rely on there: while it is running, the engine stays in its running
state, and from the report on the status of the task is what it has reported.  The discipline of
errands (`Interleaving`) says which steps may be made: the statuses of tasks are changed only in a
run, and only the status of its own task.

All that a client does follows this discipline, whatever others do between its steps: its action
(`Workflow.act_follows_errand`), and the end of the job that the action leaves behind
(`Workflow.finish_follows_errand`).
-/

namespace Rollout

variable {S α β : Type}

/-- What clients are told of a task. -/
def Stores.taskStatus (s : Stores) (t : Task) : StatusRecord := s.status (.task t)

theorem Stores.taskStatus_setStatus_of_ne {t t' : Task} (ne : t' ≠ t) (r : StatusRecord)
    (s : Stores) : (s.setStatus r (.task t)).taskStatus t' = s.taskStatus t' :=
  Stores.status_setStatus_of_ne (fun same ↦ ne (Activity.task.inj same)) r s

/-- The state is the running state of a task. -/
def Plan.Runs (p : Plan S) (o : Options) (s : S) : Prop :=
  ∃ t stages, (.task t, stages) ∈ p.activities o ∧ s = stages.running

/-- No task runs where failed checks are passed over. -/
def Plan.PassesAside (p : Plan S) (o : Options) : Prop :=
  ∀ x ∈ p.activities o, ∀ g ∈ p.gateOf x.1, ∀ y ∈ p.activities o, g.2.bypassed ≠ y.2.running

section Runs

variable [DecidableEq S] {p : Plan S} {o : Options} {a : Activity} {stages : Stages S}

/-- A state in which an activity settles is not the running state of a task. -/
theorem Plan.Sound.not_runs_outcome (sound : p.Sound o) (has : (a, stages) ∈ p.activities o) {s : S}
    (h : s ∈ p.outcomes a stages) : ¬ p.Runs o s := by
  rintro ⟨t, stages', has', rfl⟩
  exact sound.running_not_resting _ has' (Plan.outcome_mem_resting has h)

/-- The running state of what is no task is not that of a task. -/
theorem Plan.Sound.not_runs_other (sound : p.Sound o) (has : (a, stages) ∈ p.activities o)
    (other : ∀ t, a ≠ .task t) : ¬ p.Runs o stages.running := by
  rintro ⟨t, stages', has', same⟩
  exact other t (sound.running_distinct _ has _ has' same)

end Runs

/-! ### Computations that leave tasks alone -/

namespace Proc

/-- The computation leaves the engine alone, and the statuses of these tasks. -/
def Spares (T : Task → Prop) (p : Proc (Site S) α) : Prop :=
  p.Each fun act ↦ Shared.Spares act ∧
    ∀ s t, T t → (act s).payload.taskStatus t = s.payload.taskStatus t

/-- It leaves the statuses of all tasks alone. -/
abbrev SparesTasks (p : Proc (Site S) α) : Prop := p.Spares fun _ ↦ True

variable {T : Task → Prop}

theorem spares_read (f : Site S → α) : (read f).Spares T :=
  each_read ⟨fun _ ↦ rfl, fun _ _ _ ↦ rfl⟩ f

theorem spares_modify {f : Site S → Site S} (spares : Shared.Spares f)
    (keeps : ∀ s t, T t → (f s).payload.taskStatus t = s.payload.taskStatus t) :
    (modify f).Spares T := each_modify ⟨spares, keeps⟩

end Proc

/-! ### Errands -/

/-- How far a request has got. -/
inductive Errand (S : Type) where
  /-- It has not asked for the lock yet. -/
  | outside
  /-- It has the lock, and does not run a task. -/
  | holding (lock : Lock)
  /-- It runs a task, and may have reported how the task came out. -/
  | running (lock : Lock) (t : Task) (stages : Stages S) (reported : Option StatusRecord)
  /-- It has settled after this report, and still has the lock. -/
  | settled (lock : Lock) (t : Task) (r : StatusRecord)
  /-- It has given the lock back after the run of a task. -/
  | finished (t : Task) (r : StatusRecord)
  /-- It did not get the lock, or has given it back without running a task. -/
  | past

namespace Errand

def lock? : Errand S → Option Lock
  | holding lock | running lock .. | settled lock .. => some lock
  | outside | finished .. | past => none

variable [DecidableEq S]

/-- What a request can rely on. -/
def Knows (leaves : Task → StatusRecord → Prop) : Errand S → Site S → Prop
  | holding lock, s => s.engine.isCurrent lock = true
  | running lock t stages reported, s =>
    s.engine.isCurrent lock = true ∧ s.engine.current = stages.running ∧
      ∀ r, reported = some r → s.payload.taskStatus t = r ∧ leaves t r
  | settled lock t r, s =>
    s.engine.isCurrent lock = true ∧ s.payload.taskStatus t = r ∧ leaves t r
  | outside, _ | finished .., _ | past, _ => True

/-- The steps of a request that may leave these statuses behind. -/
inductive Allows (w : Workflow S) (leaves : Task → StatusRecord → Prop) (act : Site S → Site S)
    (s : Site S) : Errand S → Errand S → Prop
  | aside {c : Errand S} (spares : Shared.Spares act)
      (keeps : (act s).payload.taskStatus = s.payload.taskStatus) : Allows w leaves act s c c
  | busy (makes : Shared.Makes act fun _ ↦ .acquire)
      (keeps : (act s).payload.taskStatus = s.payload.taskStatus) (held : s.engine.held ≠ none) :
      Allows w leaves act s outside past
  | takes (makes : Shared.Makes act fun _ ↦ .acquire)
      (keeps : (act s).payload.taskStatus = s.payload.taskStatus) (free : s.engine.held = none) :
      Allows w leaves act s outside (holding s.engine.nextLock)
  | enters {lock : Lock} {target : S} (makes : Shared.Makes act (.transition lock target))
      (keeps : (act s).payload.taskStatus = s.payload.taskStatus)
      (other : s.engine.canTransition target = true → ¬ w.plan.Runs w.options target) :
      Allows w leaves act s (holding lock) (holding lock)
  | releases {lock : Lock} (makes : Shared.Makes act fun _ ↦ .release lock)
      (keeps : (act s).payload.taskStatus = s.payload.taskStatus) :
      Allows w leaves act s (holding lock) past
  | begins {lock : Lock} {t : Task} {stages : Stages S}
      (has : (.task t, stages) ∈ w.plan.activities w.options) (may : ∃ r, leaves t r)
      (makes : Shared.Makes act (.transition lock stages.running))
      (keeps : (act s).payload.taskStatus = s.payload.taskStatus)
      (can : s.engine.canTransition stages.running = true) :
      Allows w leaves act s (holding lock) (running lock t stages none)
  | works {lock : Lock} {t : Task} {stages : Stages S} (spares : Shared.Spares act)
      (keeps : ∀ t', t' ≠ t → (act s).payload.taskStatus t' = s.payload.taskStatus t') :
      Allows w leaves act s (running lock t stages none) (running lock t stages none)
  | reports {lock : Lock} {t : Task} {stages : Stages S} {r : StatusRecord}
      (spares : Shared.Spares act)
      (keeps : ∀ t', t' ≠ t → (act s).payload.taskStatus t' = s.payload.taskStatus t')
      (told : (act s).payload.taskStatus t = r) (left : leaves t r) :
      Allows w leaves act s (running lock t stages none) (running lock t stages (some r))
  | settles {lock : Lock} {t : Task} {stages : Stages S} {r : StatusRecord} {target : S}
      (makes : Shared.Makes act (.transition lock target))
      (keeps : (act s).payload.taskStatus = s.payload.taskStatus)
      (other : ¬ w.plan.Runs w.options target) :
      Allows w leaves act s (running lock t stages (some r)) (settled lock t r)
  | ends {lock : Lock} {t : Task} {r : StatusRecord}
      (makes : Shared.Makes act fun _ ↦ .release lock)
      (keeps : (act s).payload.taskStatus = s.payload.taskStatus) :
      Allows w leaves act s (settled lock t r) (finished t r)

/-- The discipline of requests that may leave these statuses behind. -/
def discipline (w : Workflow S) (leaves : Task → StatusRecord → Prop) :
    Discipline (Site S) (Errand S) where
  Knows := Knows leaves
  Allows c act s c' := Allows w leaves act s c c'

end Errand

/-! ### Steps -/

section Steps

open Proc

variable [DecidableEq S] {w : Workflow S} {leaves : Task → StatusRecord → Prop}
  {Q : α → Errand S → Prop} {R : β → Errand S → Prop} {c : Errand S} {p : Proc (Site S) α}
  {k : α → Proc (Site S) β} {lock : Lock} {t : Task} {stages : Stages S}

namespace Proc

/-- Whatever errand a request is in, it may do what leaves the tasks alone. -/
theorem Spares.follows (h : p.SparesTasks) (post : ∀ a, Q a c) :
    p.Follows (Errand.discipline w leaves) Q c :=
  Each.follows h (fun _ ⟨spares, keeps⟩ s _ ↦ .aside spares (funext fun t ↦ keeps s t trivial)) post

/-- What spares the statuses of all tasks may come before an errand. -/
theorem Spares.then (h : p.SparesTasks)
    (rest : ∀ a, (k a).Follows (Errand.discipline w leaves) R c) :
    (p >>= k).Follows (Errand.discipline w leaves) R c :=
  Each.then h (fun _ ⟨spares, keeps⟩ s _ ↦ .aside spares (funext fun t ↦ keeps s t trivial)) rest

/-- A run may change the status of its task. -/
theorem Spares.works_then (h : p.Spares (· ≠ t))
    (rest : ∀ a, (k a).Follows (Errand.discipline w leaves) R (.running lock t stages none)) :
    (p >>= k).Follows (Errand.discipline w leaves) R (.running lock t stages none) :=
  Each.then h (fun _ ⟨spares, keeps⟩ s _ ↦ .works spares (keeps s)) rest

end Proc

/-- An attempt to enter a state changes nothing but the engine. -/
theorem Shared.payload_enter {P : Type} (lock : Lock) (target : S) (s : Shared S P) :
    (match s.engine.transition lock target s.now with
      | .ok e => { s with engine := e }
      | .error _ => s).payload = s.payload := by
  split <;> rfl

namespace Errand

/-- An errand takes the lock, or it is refused and over. -/
theorem acquire_follows {Q : Except (OperationError S) (Guarded S) → Errand S → Prop}
    (busy : Q (.error (.engine .busy)) .past)
    (taken : ∀ lock, Q (.ok ⟨lock, stages⟩) (.holding lock)) :
    (Guarded.acquire stages : Proc (Site S) _).Follows (discipline w leaves) Q .outside := by
  have makes (s : Site S) :
      ((Guarded.acquire stages).run s).2.engine = (s.engine.perform .acquire).2 := by
    simp only [Guarded.acquire, run_change, Engine.perform]
    cases s.engine.acquire <;> rfl
  have keeps (s : Site S) :
      ((Guarded.acquire stages).run s).2.payload.taskStatus = s.payload.taskStatus := by
    simp only [Guarded.acquire, run_change]
    cases s.engine.acquire <;> rfl
  refine follows_change
    (fun s ↦ if s.engine.held = none then .holding s.engine.nextLock else .past)
    (fun s _ ↦ ?_) fun s _ ↦ ?_
  · by_cases free : s.engine.held = none
    · rw [if_pos free]
      exact .takes makes (keeps s) free
    · rw [if_neg free]
      exact .busy makes (keeps s) free
  · by_cases free : s.engine.held = none
    · rw [if_pos free, Engine.acquire_free free]
      exact taken _
    · rw [if_neg free, Engine.acquire_busy free]
      exact busy

/-- Whoever has the lock may enter a state in which no task runs. -/
theorem enter_follows {target : S} (other : ¬ w.plan.Runs w.options target)
    {Q : Except (EngineError S) Unit → Errand S → Prop} (post : ∀ r, Q r (.holding lock)) :
    (Shared.enter lock target : Proc (Site S) _).Follows (discipline w leaves) Q (.holding lock) :=
  follows_change (fun _ ↦ .holding lock)
    (fun s _ ↦ .enters (Shared.makes_enter lock target)
      (congrArg Stores.taskStatus (Shared.payload_enter lock target s)) fun _ ↦ other)
    fun _ _ ↦ post _

/-- Whoever has the lock may begin to run a task. -/
theorem begin_follows (has : (.task t, stages) ∈ w.plan.activities w.options)
    (may : ∃ r, leaves t r) {Q : Except (EngineError S) Unit → Errand S → Prop}
    (begun : Q (.ok ()) (.running lock t stages none))
    (refused : ∀ e, Q (.error e) (.holding lock)) :
    (Shared.enter lock stages.running : Proc (Site S) _).Follows (discipline w leaves) Q
      (.holding lock) := by
  have keeps (s : Site S) :=
    congrArg Stores.taskStatus (Shared.payload_enter lock stages.running s)
  refine follows_change
    (fun s ↦ if s.engine.canTransition stages.running then .running lock t stages none
      else .holding lock) (fun s current ↦ ?_) fun s current ↦ ?_
  · cases can : s.engine.canTransition stages.running with
    | true => exact .begins has may (Shared.makes_enter lock _) (keeps s) can
    | false =>
      exact .enters (Shared.makes_enter lock _) (keeps s)
        fun allowed ↦ nomatch can.symm.trans allowed
  · cases can : s.engine.canTransition stages.running with
    | true =>
      rw [Engine.transition_ok current can]
      exact begun
    | false =>
      rw [Engine.transition_refused current can]
      exact refused _

theorem release_follows :
    (Shared.release lock : Proc (Site S) Unit).Follows (discipline w leaves) (fun _ c ↦ c = .past)
      (.holding lock) :=
  follows_change (fun _ ↦ .past) (fun _ _ ↦ .releases (fun _ ↦ rfl) rfl) fun _ _ ↦ rfl

/-- Whoever does not run a task ends where none runs. -/
theorem finalize_follows {target : S} (other : ¬ w.plan.Runs w.options target) :
    (Shared.finalize lock target : Proc (Site S) Unit).Follows (discipline w leaves)
      (fun _ c ↦ c = .past) (.holding lock) := by
  refine Follows.bind (enter_follows (Q := fun _ c ↦ c = .holding lock) other fun _ ↦ rfl) ?_
  rintro _ _ rfl
  exact release_follows

/-- Whoever has entered a state is in this errand, and else has the lock as before. -/
def Entered {ε : Type} (lock : Lock) (entered : Errand S) : Except ε Unit → Errand S → Prop
  | .ok _, c => c = entered
  | .error _, c => c = holding lock

/-- A request that may not start gives the lock back. -/
theorem start_follows (g : Guarded S) {started : Errand S}
    (enters : (Shared.enter g.lock g.stages.running : Proc (Site S) _).Follows
      (discipline w leaves) (Entered g.lock started) (.holding g.lock))
    (other : ¬ w.plan.Runs w.options g.stages.failed)
    {Q : Except (OperationError S) (Running S) → Errand S → Prop}
    (ok : Q (.ok ⟨g.lock, g.stages⟩) started) (error : ∀ e, Q (.error e) .past) :
    (g.start : Proc (Site S) _).Follows (discipline w leaves) Q (.holding g.lock) := by
  unfold Guarded.start Guarded.transition
  refine Follows.bind (Q := Entered g.lock started) (Follows.bind enters ?_) ?_
  · rintro (e | u) _ rfl
    · exact .done rfl
    · exact .done rfl
  · rintro (e | u) _ rfl
    · refine Spares.then (spares_modify (fun _ ↦ rfl) fun _ _ _ ↦ rfl) fun _ ↦ ?_
      refine Follows.bind (finalize_follows other) ?_
      rintro _ _ rfl
      exact .done (error e)
    · exact Spares.then (spares_modify (fun _ ↦ rfl) fun _ _ _ ↦ rfl) fun _ ↦ .done ok

/-- Whoever does not run a task settles where none runs. -/
theorem conclude_holding_follows {r : Running S} {outcome : Outcome (α × Option S)}
    {report : Except (OperationError S) α → Proc (Site S) Unit}
    (reports : ∀ x, (report x).SparesTasks)
    (other : ¬ w.plan.Runs w.options (r.settledState outcome)) :
    (r.conclude outcome report).Follows (discipline w leaves) (fun _ c ↦ c = .past)
      (.holding r.lock) := by
  unfold Running.conclude
  refine Spares.then (spares_modify (fun _ ↦ rfl) fun _ _ _ ↦ rfl) fun _ ↦ ?_
  refine Spares.then (reports _) fun _ ↦ ?_
  exact Follows.bind (finalize_follows other) fun _ _ same ↦ .done same

/-! ### The end of a run -/

/-- A run reports how its task has come out. -/
theorem mark_follows {state : Status} {text : String}
    (left : ∀ now, leaves t ⟨state, text, now⟩) :
    (Site.mark (.task t) state text : Proc (Site S) Unit).Follows (discipline w leaves)
      (fun _ c ↦ ∃ r, c = .running lock t stages (some r)) (.running lock t stages none) := by
  refine follows_change (fun s ↦ .running lock t stages (some ⟨state, text, s.now⟩))
    (fun s _ ↦ .reports (fun _ ↦ rfl) (fun t' ne ↦ ?_) ?_ (left s.now)) fun _ _ ↦ ⟨_, rfl⟩
  · exact Stores.taskStatus_setStatus_of_ne ne ..
  · exact Stores.status_setStatus_self ..

/-- A run settles and gives the lock back when it has reported. -/
theorem conclude_follows {r : Running S} {outcome : Outcome (α × Option S)}
    {report : Except (OperationError S) α → Proc (Site S) Unit}
    (reports : (report (outcome.map Prod.fst).result).Follows (discipline w leaves)
      (fun _ c ↦ ∃ told, c = .running r.lock t r.stages (some told))
      (.running r.lock t r.stages none))
    (other : ¬ w.plan.Runs w.options (r.settledState outcome)) :
    (r.conclude outcome report).Follows (discipline w leaves) (fun _ _ ↦ True)
      (.running r.lock t r.stages none) := by
  unfold Running.conclude
  refine Spares.then (spares_modify (fun _ ↦ rfl) fun _ _ _ ↦ rfl) fun _ ↦ ?_
  refine Follows.bind reports ?_
  rintro _ _ ⟨told, rfl⟩
  have settles : (Shared.enter r.lock (r.settledState outcome) : Proc (Site S) _).Follows
      (discipline w leaves) (fun _ c ↦ c = .settled r.lock t told)
      (.running r.lock t r.stages (some told)) :=
    follows_change (fun _ ↦ .settled r.lock t told)
      (fun s _ ↦ .settles (Shared.makes_enter r.lock _)
        (congrArg Stores.taskStatus (Shared.payload_enter r.lock _ s)) other) fun _ _ ↦ rfl
  have ends : (Shared.release r.lock : Proc (Site S) Unit).Follows (discipline w leaves)
      (fun _ c ↦ c = .finished t told) (.settled r.lock t told) :=
    follows_change (fun _ ↦ .finished t told) (fun _ _ ↦ .ends (fun _ ↦ rfl) rfl) fun _ _ ↦ rfl
  have finalizes : (Shared.finalize r.lock (r.settledState outcome) : Proc (Site S) Unit).Follows
      (discipline w leaves) (fun _ c ↦ c = .finished t told)
      (.running r.lock t r.stages (some told)) := by
    refine Follows.bind settles ?_
    rintro _ _ rfl
    exact ends
  exact Follows.bind finalizes fun _ _ _ ↦ .done trivial

end Errand
end Steps

/-- What is done outside of an attempt does not end it. -/
theorem Attempt.liftM_then_follows {γ : Type} {D : Discipline (Site S) γ} {g : γ}
    {Q : α → γ → Prop} {R : Except (ActionError S) β → γ → Prop} {p : Proc (Site S) α}
    {k : α → Attempt S β} (h : p.Follows D Q g)
    (rest : ∀ a g', Q a g' → (k a).run.Follows D R g') :
    ((liftM p : Attempt S α) >>= k).run.Follows D R g := by
  show ((p >>= fun a ↦ pure (Except.ok a)) >>= ExceptT.bindCont k).Follows D R g
  have lifts : (p >>= fun a ↦ pure (Except.ok a) :
      Proc (Site S) (Except (ActionError S) α)).Follows D
        (fun r g' ↦ ∃ a, r = .ok a ∧ Q a g') g :=
    Proc.Follows.bind h fun a g' post ↦ .done ⟨a, rfl, post⟩
  refine Proc.Follows.bind lifts ?_
  rintro _ g' ⟨a, rfl, post⟩
  exact rest a g' post

namespace Workflow

open Proc Errand

variable {w : Workflow S} {T : Task → Prop}

/-! ### What actions do beside tasks -/

theorem spares_look (f : Stores → α) : (Site.look f : Proc (Site S) α).Spares T := spares_read _

theorem spares_values : w.values.Spares T := spares_look _

/-- A configuration does not mark a task. -/
theorem spares_mark {a : Activity} (other : ∀ t, a ≠ .task t) (state : Status) (text : String) :
    (Site.mark a state text : Proc (Site S) Unit).Spares T :=
  spares_modify (fun _ ↦ rfl) fun _ t _ ↦
    Stores.status_setStatus_of_ne (fun same ↦ other t same.symm) _ _

variable [DecidableEq S] {leaves : Task → StatusRecord → Prop} {t : Task} {stages : Stages S}
  {c : Errand S}

theorem stages_follows {a : Activity} {Q : Except (ActionError S) (Stages S) → Errand S → Prop}
    (has : ∀ stages, (a, stages) ∈ w.plan.activities w.options → Q (.ok stages) c)
    (error : ∀ e, Q (.error e) c) : (w.stages a).run.Follows (discipline w leaves) Q c := by
  unfold Workflow.stages
  cases found : w.plan.stages w.options a with
  | error what => exact .done (error _)
  | ok stages => exact .done (has stages (Plan.mem_activities.2 found))

/-- What is passed over is not the running state of a task. -/
theorem bypass_follows (passesAside : w.plan.PassesAside w.options) (ignore : Bool)
    (has : (.task t, stages) ∈ w.plan.activities w.options)
    {Q : Except (ActionError S) (Option S) → Errand S → Prop}
    (passes : ∀ through, (∀ b, through = some b → ¬ w.plan.Runs w.options b) → Q (.ok through) c)
    (error : ∀ e, Q (.error e) c) : (w.bypass ignore t).run.Follows (discipline w leaves) Q c := by
  unfold bypass
  cases gated : t.gatedBy?.bind fun scope ↦ (w.plan.gate scope).map (scope, ·) with
  | none => exact .done (passes none nofun)
  | some g =>
    obtain ⟨scope, gate⟩ := g
    refine Attempt.liftM_then_follows ((spares_read _).follows (Q := fun _ c' ↦ c' = c)
      fun _ ↦ rfl) ?_
    rintro current _ rfl
    split
    · exact .done (passes none nofun)
    · split
      · refine .done (passes _ ?_)
        rintro b ⟨⟩ ⟨t', stages', has', same⟩
        exact passesAside _ has (scope, gate) gated _ has' same
      · exact .done (error _)

/-- On the way into a running state, a request that may not go on gives the lock back. -/
theorem enter_follows {through : Option S} {started : Lock → Errand S}
    (passes : ∀ b, through = some b → ¬ w.plan.Runs w.options b)
    (other : ¬ w.plan.Runs w.options stages.failed)
    (enters : ∀ lock, (Shared.enter lock stages.running : Proc (Site S) _).Follows
      (discipline w leaves) (Entered lock (started lock)) (.holding lock))
    {Q : Except (ActionError S) (Running S) → Errand S → Prop}
    (ok : ∀ lock, Q (.ok ⟨lock, stages⟩) (started lock)) (error : ∀ e, Q (.error e) .past) :
    (enter stages through).run.Follows (discipline w leaves) Q .outside := by
  have starts (lock : Lock) :
      (Attempt.ofOperation (Guarded.start ⟨lock, stages⟩ : Proc (Site S) _)).run.Follows
        (discipline w leaves) Q (.holding lock) :=
    Attempt.ofOperation_follows
      (start_follows ⟨lock, stages⟩ (enters lock) other (ok lock) fun e ↦ error (.operation e))
  unfold enter
  refine Attempt.then_follows (M := fun g c ↦ ∃ lock, g = ⟨lock, stages⟩ ∧ c = .holding lock)
    (Attempt.ofOperation_follows (acquire_follows (error _) fun lock ↦ ⟨lock, rfl, rfl⟩)) ?_
  rintro _ _ ⟨lock, rfl, rfl⟩
  cases through with
  | none => exact starts lock
  | some b =>
    have enters_b : (Guarded.transition ⟨lock, stages⟩ b : Proc (Site S) _).Follows
        (discipline w leaves) (fun _ c ↦ c = .holding lock) (.holding lock) :=
      Follows.bind (Errand.enter_follows (Q := fun _ c ↦ c = .holding lock) (passes b rfl)
        fun _ ↦ rfl) fun _ _ same ↦ .done same
    refine Attempt.liftM_then_follows enters_b ?_
    rintro (e | u) _ rfl
    · refine Attempt.liftM_then_follows (finalize_follows other) ?_
      rintro _ _ rfl
      exact .done (error _)
    · exact starts lock

/-! ### Configuration -/

omit [DecidableEq S] in
/-- Work that does not choose a state to settle in settles in one of its activity. -/
theorem settledState_mem {a : Activity} {lock : Lock} {outcome : Outcome (α × Option S)}
    (plain : ∀ v settle, outcome = .returned (v, settle) → settle = none) :
    Running.settledState ⟨lock, stages⟩ outcome ∈ w.plan.outcomes a stages := by
  cases outcome with
  | returned x =>
    obtain ⟨v, settle⟩ := x
    obtain rfl := plain v settle rfl
    exact Plan.succeeded_mem_outcomes
  | failed f => exact Plan.failed_mem_outcomes
  | panicked p => exact Plan.failed_mem_outcomes

section Configuration

variable {lock : Lock}

/-- The work of a configuration does not choose a state to settle in. -/
theorem mergePatch_follows (patch : ConfigValues) :
    (w.mergePatch patch).Follows (discipline w leaves) (fun outcome c ↦ c = .holding lock ∧
      ∀ v settle, outcome = .returned (v, settle) → settle = none) (.holding lock) := by
  unfold mergePatch
  refine Spares.then (spares_look _) fun values ↦ ?_
  dsimp only
  cases w.schema.validate (AppConfigSchema.merge values patch) with
  | error e => exact .done ⟨rfl, nofun⟩
  | ok u =>
    refine Spares.then (spares_modify (fun _ ↦ rfl) fun _ t _ ↦ ?_) fun _ ↦ ?_
    · rcases t with ⟨⟨⟩⟩ | _ | _ | _ <;> rfl
    · refine Spares.then spares_values fun _ ↦ .done ⟨rfl, ?_⟩
      rintro v settle ⟨⟩
      rfl

theorem storeSettings_follows (settings : InstallationConfig) :
    (storeSettings settings : Proc (Site S) _).Follows (discipline w leaves)
      (fun outcome c ↦ c = .holding lock ∧
        ∀ v settle, outcome = .returned (v, settle) → settle = none) (.holding lock) := by
  unfold storeSettings
  cases settings.validate with
  | error e => exact .done ⟨rfl, nofun⟩
  | ok u =>
    refine Spares.then (spares_modify (fun _ ↦ rfl) fun _ t _ ↦ ?_) fun _ ↦ .done ⟨rfl, ?_⟩
    · rcases t with ⟨⟨⟩⟩ | _ | _ | _ <;> rfl
    · rintro v settle ⟨⟩
      rfl

variable [ToString S] (sound : w.plan.Sound w.options)

include sound

/-- A configuration from end to end is an errand that leaves no job behind. -/
theorem settleNow_follows {a : Activity} (other : ∀ t, a ≠ .task t) {running succeeded : String}
    {work : Proc (Site S) (Outcome (α × Option S))}
    (works : ∀ lock, work.Follows (discipline w leaves) (fun outcome c ↦ c = .holding lock ∧
      ∀ v settle, outcome = .returned (v, settle) → settle = none) (.holding lock)) :
    (w.settleNow a running succeeded work).run.Follows (discipline w leaves) (fun _ _ ↦ True)
      .outside := by
  unfold settleNow
  refine Attempt.then_follows (M := fun stages c ↦ (a, stages) ∈ w.plan.activities w.options ∧
    c = .outside) (stages_follows (fun stages has ↦ ⟨has, rfl⟩) fun _ ↦ trivial) ?_
  rintro stages _ ⟨has, rfl⟩
  have enters (lock : Lock) : (Shared.enter lock stages.running : Proc (Site S) _).Follows
      (discipline w leaves) (Entered lock (.holding lock)) (.holding lock) :=
    Errand.enter_follows (sound.not_runs_other has other) fun r ↦ by cases r <;> rfl
  have not_failed := sound.not_runs_outcome has Plan.failed_mem_outcomes
  refine Attempt.then_follows (M := fun operation c ↦ ∃ lock, operation = ⟨lock, stages⟩ ∧
    c = .holding lock) (enter_follows nofun not_failed enters (fun lock ↦ ⟨lock, rfl, rfl⟩)
      fun _ ↦ trivial) ?_
  rintro _ _ ⟨lock, rfl, rfl⟩
  refine Attempt.ofOperation_follows (Spares.then (spares_mark other ..) fun _ ↦ ?_)
  refine Follows.bind (Q := fun _ c ↦ c = .past) (Follows.bind (works lock) ?_) ?_
  · rintro outcome _ ⟨rfl, plain⟩
    exact conclude_holding_follows (fun _ ↦ .done _)
      (sound.not_runs_outcome has (settledState_mem plain))
  · rintro (e | v) _ rfl
    · exact Spares.then (spares_mark other ..) fun _ ↦ .done trivial
    · exact Spares.then (spares_mark other ..) fun _ ↦ .done trivial

end Configuration

/-! ### Tasks -/

section Tasks

omit [DecidableEq S] in
theorem spares_write {f : Stores → Stores}
    (keeps : ∀ s t', T t' → (f s).taskStatus t' = s.taskStatus t') :
    (Site.write f : Proc (Site S) Unit).Spares T :=
  spares_modify (fun _ ↦ rfl) fun s ↦ keeps s.payload

omit [DecidableEq S] in
/-- What is changed in a store of checks besides their status. -/
theorem spares_modifyPreflights {f : PreflightStore → PreflightStore} {scope : PreflightScope}
    (keeps : ∀ p, (f p).status = p.status) :
    (Site.write fun s ↦ s.modifyPreflights f scope : Proc (Site S) Unit).Spares T := by
  refine spares_write fun s t _ ↦ ?_
  rcases scope with _ | _ <;> rcases t with ⟨⟨⟩⟩ | _ | _ | _
  case host.preflights.host => exact keeps s.hostPreflights
  case app.preflights.app => exact keeps s.appPreflights
  all_goals rfl

omit [DecidableEq S] in
theorem spares_modifyLog {f : Log → Log} {t : Task} :
    (Site.write fun s ↦ s.modifyLog f t : Proc (Site S) Unit).Spares T := by
  refine spares_write fun s t' _ ↦ ?_
  rcases t with _ | _ | _ | _ <;> rcases t' with ⟨⟨⟩⟩ | _ | _ | _ <;> rfl

omit [DecidableEq S] in
/-- Only the status of the task is cleared. -/
theorem spares_clear (t : Task) : (Site.clear t : Proc (Site S) Unit).Spares (· ≠ t) := by
  unfold Site.clear
  refine (spares_write fun s t' ne ↦ ?_).bind fun _ ↦ ?_
  · exact Stores.taskStatus_setStatus_of_ne ne ..
  · cases t with
    | preflights scope =>
      exact Each.bind (spares_modifyPreflights fun _ ↦ rfl) fun _ ↦
        spares_modifyPreflights fun _ ↦ rfl
    | infrastructure =>
      refine Each.bind (spares_write fun s t' _ ↦ ?_) fun _ ↦ spares_modifyLog
      rcases t' with ⟨⟨⟩⟩ | _ | _ | _ <;> rfl
    | airgap => exact spares_modifyLog
    | deployment =>
      refine Each.bind (spares_write fun s t' _ ↦ ?_) fun _ ↦ spares_modifyLog
      rcases t' with ⟨⟨⟩⟩ | _ | _ | _ <;> rfl

omit [DecidableEq S] in
/-- What a collaborator has returned is no status. -/
theorem spares_keep (t : Task) (outcome : Outcome t.Value) :
    (keep t outcome : Proc (Site S) Unit).Spares T := by
  cases t with
  | preflights scope =>
    cases outcome with
    | returned o => exact spares_modifyPreflights fun _ ↦ rfl
    | failed | panicked => exact .done _
  | deployment =>
    cases outcome with
    | returned r =>
      have released (s : Stores) (t' : Task) (_ : T t') :
          Stores.taskStatus { s with app.release := some r } t' = s.taskStatus t' := by
        rcases t' with ⟨⟨⟩⟩ | _ | _ | _ <;> rfl
      exact spares_write released
    | failed | panicked => exact .done _
  | infrastructure | airgap => exact .done _

variable {lock : Lock}

/-- A run that prepares its call goes on running. -/
theorem prepare_follows (t : Task) :
    (w.prepare t).Follows (discipline w leaves)
      (fun call c ↦ call.task = t ∧ c = .running lock t stages none)
      (.running lock t stages none) := by
  unfold prepare
  refine (spares_clear t).works_then fun _ ↦ ?_
  cases t with
  | preflights scope =>
    exact Spares.works_then (spares_modifyPreflights fun _ ↦ rfl) fun _ ↦ .done ⟨rfl, rfl⟩
  | infrastructure =>
    cases w.plan.mode with
    | install => exact (spares_look _).works_then fun _ ↦ .done ⟨rfl, rfl⟩
    | upgrade => exact .done ⟨rfl, rfl⟩
  | airgap => exact .done ⟨rfl, rfl⟩
  | deployment =>
    refine Spares.works_then spares_values fun _ ↦ ?_
    cases w.plan.mode <;> exact .done ⟨rfl, rfl⟩

/-- The job that is left behind is that of the run. -/
def LeavesJob (w : Workflow S) (t : Task) (job : Job S) (c : Errand S) : Prop :=
  job.call.task = t ∧ (.task t, job.running.stages) ∈ w.plan.activities w.options ∧
    c = .running job.running.lock t job.running.stages none

/-- A task that runs leaves its job behind, under the lock that is handed on to it. -/
theorem launch_follows {t : Task} (running : Running S)
    (has : (.task t, running.stages) ∈ w.plan.activities w.options) :
    (w.launch t running).Follows (discipline w leaves) (fun a c ↦ w.LeavesJob t a.job c)
      (.running running.lock t running.stages none) := by
  unfold launch
  refine Follows.bind (prepare_follows t) ?_
  rintro call _ ⟨task, rfl⟩
  have marks : (Site.mark (.task t) .running (w.plan.labels t).running :
      Proc (Site S) Unit).Spares (· ≠ t) :=
    spares_modify (fun _ ↦ rfl) fun _ _ ne ↦ Stores.taskStatus_setStatus_of_ne ne ..
  refine marks.works_then fun _ ↦ ?_
  exact (spares_look _).works_then fun _ ↦ .done ⟨task, has, rfl⟩

variable (sound : w.plan.Sound w.options) (passesAside : w.plan.PassesAside w.options)

include sound passesAside

/-- A task that begins is an errand that leaves its job behind, and one that is refused leaves none.
-/
theorem begin_follows (t : Task) (ignore : Bool) (may : ∃ r, leaves t r)
    {Q : Except (ActionError S) (Accepted S) → Errand S → Prop}
    (accepted : ∀ a c, w.LeavesJob t a.job c → Q (.ok a) c) (error : ∀ e c, Q (.error e) c) :
    (w.begin t ignore).run.Follows (discipline w leaves) Q .outside := by
  unfold Workflow.begin
  refine Attempt.then_follows (M := fun stages c ↦ (.task t, stages) ∈ w.plan.activities w.options ∧
    c = .outside) (stages_follows (fun stages has ↦ ⟨has, rfl⟩) fun _ ↦ error _ _) ?_
  rintro stages _ ⟨has, rfl⟩
  refine Attempt.then_follows (M := fun through c ↦
    (∀ b, through = some b → ¬ w.plan.Runs w.options b) ∧ c = .outside)
    (bypass_follows passesAside ignore has (fun _ passes ↦ ⟨passes, rfl⟩) fun _ ↦ error _ _) ?_
  rintro through _ ⟨passes, rfl⟩
  have not_failed := sound.not_runs_outcome has Plan.failed_mem_outcomes
  refine Attempt.then_follows (M := fun running c ↦ ∃ lock, running = ⟨lock, stages⟩ ∧
    c = .running lock t stages none) (enter_follows passes not_failed
      (fun lock ↦ Errand.begin_follows has may rfl fun _ ↦ rfl) (fun lock ↦ ⟨lock, rfl, rfl⟩)
      fun _ ↦ error _ _) ?_
  rintro _ _ ⟨lock, rfl, rfl⟩
  show (w.launch t ⟨lock, stages⟩ >>= fun a ↦ pure (Except.ok a)).Follows _ _ _
  exact Follows.bind (launch_follows ⟨lock, stages⟩ has) fun a c left ↦ .done (accepted a c left)

variable [ToString S]

/-- An action that leaves a job behind is running its task. -/
def Left (w : Workflow S) (a : Action) (answered : Answer S × Option (Job S)) (c : Errand S) :
    Prop :=
  ∀ job, answered.2 = some job → ∃ t ignore, a = .begin t ignore ∧ w.LeavesJob t job c

/-- Each action is an errand. -/
theorem act_follows_errand (a : Action)
    (may : ∀ t ignore, a = .begin t ignore → ∃ r, leaves t r) :
    (w.act a).Follows (discipline w leaves) (w.Left a) .outside := by
  cases a with
  | patchValues patch =>
    have follows : (w.patchValues patch).run.Follows (discipline w leaves) (fun _ _ ↦ True)
        .outside := settleNow_follows sound (by nofun) fun _ ↦ mergePatch_follows patch
    refine answer_follows (Follows.mono follows ?_)
    rintro (e | v) c - <;> exact nofun
  | configureInstallation settings =>
    have follows : (w.configureInstallation settings).run.Follows (discipline w leaves)
        (fun _ _ ↦ True) .outside :=
      settleNow_follows sound (by nofun) fun _ ↦ storeSettings_follows settings
    refine answer_follows (Follows.mono follows ?_)
    rintro (e | v) c - <;> exact nofun
  | begin t ignore =>
    refine answer_follows
      (begin_follows sound passesAside t ignore (may t ignore rfl) ?_ fun _ _ ↦ nofun)
    rintro a c left job ⟨⟩
    exact ⟨t, ignore, rfl, left⟩

omit passesAside in
/-- A job that ends reports the outcome of its task. -/
theorem finish_follows_errand (running : Running S) (t : Task) (outcome : Outcome t.Value)
    (has : (.task t, running.stages) ∈ w.plan.activities w.options)
    (left : ∀ now, leaves t (w.outcomeStatus now t outcome)) :
    (w.finish running t outcome).Follows (discipline w leaves) (fun _ _ ↦ True)
      (.running running.lock t running.stages none) := by
  have other : ¬ w.plan.Runs w.options (w.outcomeState running.stages t outcome) :=
    sound.not_runs_outcome has (w.outcomeState_mem ..)
  obtain ⟨conclusion, same, concludes⟩ := w.finish_eq running t outcome
  rw [same]
  refine (spares_keep t outcome).works_then fun _ ↦ ?_
  cases concludes with
  | intro state text tally settles reports status =>
    refine Follows.bind (conclude_follows ?_ (settles ▸ other)) fun _ _ _ ↦ .done trivial
    rw [reports]
    exact mark_follows fun now ↦ status now ▸ left now

end Tasks
end Workflow
end Rollout
