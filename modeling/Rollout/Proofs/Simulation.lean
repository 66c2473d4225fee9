import Rollout.Proofs.History

/-!
# Sessions follow their outlines

Every event of a session either leaves its outline as it is or changes it by a step along the fact
that the event comes to.  The invariant that carries this is `Session.Consistent`: the job in flight
holds the lock and is in its running state, and without one the lock is free and the workflow waits.
-/

namespace Rollout

variable {S : Type}

/-- The engine and the job in flight agree. -/
structure Session.Consistent (w : Workflow S) (s : Session S) : Prop where
  table : s.site.engine.table = w.table
  idle : s.job = none →
    s.site.engine.held = none ∧ s.site.engine.current ∈ w.plan.resting w.options
  busy : ∀ job, s.job = some job → s.site.engine.isCurrent job.running.lock = true ∧
    s.site.engine.current = job.running.stages.running ∧
    (.task job.call.task, job.running.stages) ∈ w.plan.activities w.options

namespace Session

variable {w : Workflow S} {s s' : Session S}

theorem Consistent.no_job (h : s.Consistent w) (free : s.site.engine.held = none) :
    s.job = none := by
  cases found : s.job with
  | none => rfl
  | some job => exact absurd free (Engine.held_ne_none (h.busy job found).1)

/-- A session begins in a consistent way. -/
theorem start_consistent (w : Workflow S) (values : Option ConfigValues) (now : Timestamp) :
    (Session.start w values now).Consistent w where
  table := rfl
  idle _ := ⟨rfl, Plan.initial_mem_resting⟩
  busy _ h := nomatch h

variable [DecidableEq S]

theorem Consistent.enters (h : s.Consistent w) {a : Activity} {stages : Stages S}
    {through : Option S} (has : (a, stages) ∈ w.plan.activities w.options)
    (free : s.site.engine.held = none)
    (leads : s.site.engine.table.Leads s.site.engine.current through stages.running) :
    w.Enters s.outline a through stages := by
  have no_job := h.no_job free
  refine ⟨has, ?_, (h.idle no_job).2, h.table ▸ leads⟩
  show s.job.map (·.call) = none
  rw [no_job]
  rfl

/-- An activity that a client waited for leaves a consistent session in the state in which it
settled. -/
theorem Consistent.after_passing (sound : w.plan.Sound w.options) (consistent : s.Consistent w)
    {a : Activity} {stages : Stages S} (has : (a, stages) ∈ w.plan.activities w.options)
    (free : s.site.engine.held = none) {target : S} (settles : target ∈ w.plan.outcomes a stages)
    (c : Counters) (payload : Stores) :
    let next : Session S :=
      ⟨{ s.site with
          engine := s.site.engine.passed stages.running target s.site.now
          counters := c
          payload := payload }, none.or s.job⟩
    next.Consistent w ∧
      next.outline = ⟨target, s.outline.call, payload.values, payload.settings⟩ ∧
      next.site.engine.last = some ⟨stages.running, target, s.site.now⟩ := by
  have allowed : s.site.engine.table.allows stages.running target = true := by
    rw [consistent.table]
    exact sound.settles _ has _ settles
  intro next
  have next_eq : next =
      ⟨{ s.site with
          engine := { s.site.engine with
            current := target
            held := none
            nextGeneration := s.site.engine.nextGeneration + 1
            last := some ⟨stages.running, target, s.site.now⟩ }
          counters := c
          payload := payload }, none⟩ := by
    show Session.mk _ _ = _
    rw [Engine.passed_of_allows allowed, consistent.no_job free]
    rfl
  rw [next_eq]
  refine ⟨⟨consistent.table, fun _ ↦ ⟨rfl, Plan.outcome_mem_resting has settles⟩, ?_⟩, ?_, rfl⟩
  · intro job h
    nomatch h
  · show _ = Outline.mk target (s.job.map (·.call)) _ _
    rw [consistent.no_job free]
    rfl

/-- The activity of a fact has settled just now. -/
def Settled (w : Workflow S) (s : Session S) (f : Fact) (now : Timestamp) : Prop :=
  ∃ stages, (f.activity, stages) ∈ w.plan.activities w.options ∧
    s.site.engine.last = some ⟨stages.running, w.stateAfter stages f, now⟩

/-- What an event may do to the outline of a session.  All but calls end with a settlement. -/
def Follows (w : Workflow S) (s : Session S) (f : Option Fact) (s' : Session S) : Prop :=
  match f with
  | none => s'.outline = s.outline
  | some f => w.Step s.outline f s'.outline ∧ (f.isCall = false → s'.Settled w f s.site.now)

variable [ToString S]

/-- The session after an action, when the run of the action is known. -/
theorem next_act {a : Action} {answer : Answer S} {job : Option (Job S)} {site : Site S}
    (h : (w.act a).run s.site = ((answer, job), site)) :
    (s.next w (.act a)).2 = ⟨site, job.or s.job⟩ ∧ s.fact w (.act a) = a.fact (answer, job) := by
  constructor
  · show (s.take (w.act a)).2 = _
    unfold take does
    rw [h]
  · show a.fact ((w.act a).run s.site).1 = _
    rw [h]

/-- A report of the collaborator is no fact. -/
theorem note_follows (consistent : s.Consistent w) (p : Progress) :
    (s.next w (.note p)).2.Consistent w ∧
      s.Follows w (s.fact w (.note p)) (s.next w (.note p)).2 := by
  show (s.note p).Consistent w ∧ (s.note p).outline = s.outline
  unfold note
  cases found : s.job with
  | none => exact ⟨consistent, rfl⟩
  | some job =>
    obtain ⟨payload, ran, values_eq, settings_eq⟩ :=
      Workflow.run_note (s := s.site) job.call.task p
    simp only [does, ran]
    refine ⟨⟨consistent.table, consistent.idle, consistent.busy⟩, ?_⟩
    show Outline.mk _ _ payload.values payload.settings = _
    rw [values_eq, settings_eq]
    rfl

variable (sound : w.plan.Sound w.options)

include sound

theorem Consistent.acted (consistent : s.Consistent w) (a : Action) :
    w.Acted s.site a ((w.act a).run s.site).1 (s.next w (.act a)).2.site :=
  Workflow.act_cases sound consistent.table
    (fun free ↦ (consistent.idle (consistent.no_job free)).2) a

/-- An action comes to the fact that it is taken for. -/
theorem act_follows (consistent : s.Consistent w) (a : Action) :
    (s.next w (.act a)).2.Consistent w ∧
      s.Follows w (s.fact w (.act a)) (s.next w (.act a)).2 := by
  have rest (free : s.site.engine.held = none) := (consistent.idle (consistent.no_job free)).2
  have acted := Workflow.act_cases sound consistent.table rest a
  obtain ⟨⟨⟨answer, job⟩, site⟩, ran⟩ : ∃ r, (w.act a).run s.site = r := ⟨_, rfl⟩
  rw [ran] at acted
  obtain ⟨next_eq, fact_eq⟩ := next_act ran
  rw [next_eq, fact_eq]
  cases acted with
  | refused a refusal valid untouched =>
    obtain ⟨generation, rfl⟩ := untouched
    rw [a.fact_refused refusal]
    exact ⟨⟨consistent.table, consistent.idle, consistent.busy⟩, rfl⟩
  | patched has free can accepted =>
    obtain ⟨consistent', outline_eq, last_eq⟩ :=
      consistent.after_passing sound has free Plan.succeeded_mem_outcomes _ _
    refine ⟨consistent', ?_, fun _ ↦ ⟨_, has, last_eq⟩⟩
    show w.Step s.outline (.patched _ true) _
    rw [outline_eq]
    exact .patched (consistent.enters has free can) accepted
  | patchRejected has free can rejected =>
    obtain ⟨consistent', outline_eq, last_eq⟩ :=
      consistent.after_passing sound has free Plan.failed_mem_outcomes _ _
    refine ⟨consistent', ?_, fun _ ↦ ⟨_, has, last_eq⟩⟩
    show w.Step s.outline (.patched _ false) _
    rw [outline_eq]
    exact .patchRejected (consistent.enters has free can) rejected
  | configured has free can accepted =>
    obtain ⟨consistent', outline_eq, last_eq⟩ :=
      consistent.after_passing sound has free Plan.succeeded_mem_outcomes _ _
    refine ⟨consistent', ?_, fun _ ↦ ⟨_, has, last_eq⟩⟩
    show w.Step s.outline (.configured _ true) _
    rw [outline_eq]
    exact .configured (consistent.enters has free can) accepted
  | configurationRejected has free can rejected =>
    obtain ⟨consistent', outline_eq, last_eq⟩ :=
      consistent.after_passing sound has free Plan.failed_mem_outcomes _ _
    refine ⟨consistent', ?_, fun _ ↦ ⟨_, has, last_eq⟩⟩
    show w.Step s.outline (.configured _ false) _
    rw [outline_eq]
    exact .configurationRejected (consistent.enters has free can) rejected
  | began has free passes leads =>
    refine ⟨⟨?_, (fun h ↦ nomatch h), ?_⟩, ?_, nofun⟩
    · exact (Workflow.table_movedVia ..).trans consistent.table
    · rintro job ⟨⟩
      refine ⟨?_, rfl, ?_⟩
      · exact (Workflow.isCurrent_movedVia ..).trans s.site.engine.isCurrent_taken
      · rw [Workflow.task_callFor]
        exact has
    · show w.Step s.outline (.began _ _ _)
        ⟨_, _, (w.begunIn _ _ _).values, (w.begunIn _ _ _).settings⟩
      rw [Workflow.values_begunIn, Workflow.settings_begunIn]
      exact .began (consistent.enters has free leads) passes

/-- The session after its job has ended. -/
theorem next_complete (consistent : s.Consistent w) {job : Job S} (h : s.job = some job)
    (outcome : (c : Call) → Outcome c.task.Value) :
    let target := w.outcomeState job.running.stages job.call.task (outcome job.call)
    (s.next w (.complete outcome)).2 =
      ⟨{ s.site with
          engine := (s.site.engine.moved target s.site.now).freed
          counters := s.site.counters.record (outcome job.call).tally
          payload := w.endedIn s.site.now s.site.payload job.call.task (outcome job.call) },
        none⟩ := by
  obtain ⟨holds, running, has⟩ := consistent.busy job h
  intro target
  have can : s.site.engine.canTransition target = true := by
    unfold Engine.canTransition
    rw [running, consistent.table]
    exact sound.settles _ has _ (w.outcomeState_mem ..)
  show s.complete w outcome = _
  unfold complete
  rw [h]
  simp only [does]
  rw [Workflow.run_finish _ holds, Engine.settled_of_can can]

/-- The end of a job comes to the fact that it is taken for. -/
theorem complete_follows (consistent : s.Consistent w)
    (outcome : (c : Call) → Outcome c.task.Value) :
    (s.next w (.complete outcome)).2.Consistent w ∧
      s.Follows w (s.fact w (.complete outcome)) (s.next w (.complete outcome)).2 := by
  cases found : s.job with
  | none =>
    have next_eq : (s.next w (.complete outcome)).2 = s := by
      show s.complete w outcome = s
      unfold complete
      rw [found]
    rw [next_eq]
    refine ⟨consistent, ?_⟩
    unfold fact
    rw [found]
    rfl
  | some job =>
    obtain ⟨holds, running, has⟩ := consistent.busy job found
    rw [next_complete sound consistent found]
    refine ⟨⟨consistent.table, ?_, fun _ h ↦ nomatch h⟩, ?_⟩
    · intro _
      exact ⟨rfl, Plan.outcome_mem_resting has (w.outcomeState_mem ..)⟩
    · unfold fact
      rw [found]
      show w.Step s.outline (.ended job.call.task (outcome job.call)) ⟨_, _, (w.endedIn ..).values,
        (w.endedIn ..).settings⟩ ∧ _
      rw [Workflow.values_endedIn, Workflow.settings_endedIn]
      have calling : s.outline.call = some job.call := by
        show s.job.map (·.call) = _
        rw [found]
        rfl
      refine ⟨.ended (outcome job.call) has calling running, fun _ ↦ ⟨job.running.stages, has, ?_⟩⟩
      show some (Transition.mk s.site.engine.current _ _) = _
      rw [running]
      rfl

/-- Every event comes to the fact that it is taken for, and leaves the session consistent. -/
theorem next_follows (consistent : s.Consistent w) (e : Event) :
    (s.next w e).2.Consistent w ∧ s.Follows w (s.fact w e) (s.next w e).2 := by
  cases e with
  | act a => exact act_follows sound consistent a
  | note p => exact note_follows consistent p
  | tick now => exact ⟨⟨consistent.table, consistent.idle, consistent.busy⟩, rfl⟩
  | complete outcome => exact complete_follows sound consistent outcome

/-- Every run of a session is a trace along its history. -/
theorem trace_history (consistent : s.Consistent w) (events : List Event) :
    (s.after w events).Consistent w ∧
      w.Trace s.outline (s.history w events) (s.after w events).outline := by
  induction events generalizing s with
  | nil => exact ⟨consistent, .nil⟩
  | cons e more ih =>
    obtain ⟨consistent', follows⟩ := next_follows sound consistent e
    obtain ⟨consistent'', trace⟩ := ih consistent'
    refine ⟨consistent'', ?_⟩
    show w.Trace s.outline ((s.fact w e).toList ++ (s.next w e).2.history w more) _
    cases found : s.fact w e with
    | none =>
      rw [found] at follows
      exact (follows : _ = s.outline) ▸ trace
    | some f =>
      rw [found] at follows
      exact .cons follows.1 trace

end Session

/-! ### Runs -/

namespace Workflow

def install (options : Options) (schema : AppConfigSchema)
    (titles : PreflightScope → List String) : Workflow InstallState :=
  ⟨InstallState.plan, options, schema, titles⟩

def upgrade (options : Options) (schema : AppConfigSchema)
    (titles : PreflightScope → List String) : Workflow UpgradeState :=
  ⟨UpgradeState.plan, options, schema, titles⟩

def fresh (w : Workflow S) (values : ConfigValues) : Outline S := ⟨w.plan.initial, none, values, {}⟩

variable [DecidableEq S] [ToString S]

def after (w : Workflow S) (values : Option ConfigValues) (now : Timestamp) (events : List Event) :
    Session S :=
  (Session.start w values now).after w events

def history (w : Workflow S) (values : Option ConfigValues) (now : Timestamp)
    (events : List Event) : List Fact :=
  (Session.start w values now).history w events

/-- What is answered in a run from the beginning, and where it leads. -/
def transcript (w : Workflow S) (values : Option ConfigValues) (now : Timestamp)
    (events : List Event) : List (Option (Answer S) × Session S) :=
  (Session.start w values now).transcript w events

/-- Every session that can be reached is consistent. -/
theorem consistent_after {w : Workflow S} (sound : w.plan.Sound w.options)
    (values : Option ConfigValues) (now : Timestamp) (events : List Event) :
    (w.after values now events).Consistent w :=
  (Session.trace_history sound (Session.start_consistent w values now) events).1

/-- Every run from the beginning is a trace. -/
theorem trace {w : Workflow S} (sound : w.plan.Sound w.options) (values : Option ConfigValues)
    (now : Timestamp) (events : List Event) :
    w.Trace (w.fresh (values.getD .empty)) (w.history values now events)
      (w.after values now events).outline :=
  (Session.trace_history sound (Session.start_consistent w values now) events).2

end Workflow
end Rollout
