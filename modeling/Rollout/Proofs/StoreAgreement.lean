import Rollout.Proofs.Simulation

/-!
# The stores tell the same as the engine

What an activity has come to is recorded twice: in the state of the engine, and in the status and
the result of the activity's store.  Between two events the two records agree.  A task is marked as
running exactly while the engine is in its running state, and when the workflow waits, the store of
the activity that has settled last tells how it came out.

`Session.Agrees` is the invariant.  It says besides that a task in flight has no result of an
earlier run, so that a task that fails leaves none.
-/

namespace Rollout

variable {S : Type}

/-! ### What a store tells -/

/-- How an activity can have come out.  Checks that reported failures have closed their gate. -/
inductive Verdict where
  | succeeded
  | closed
  | failed

/-- The store of checks tells how they came out. -/
def PreflightStore.Tells (p : PreflightStore) : Verdict → Prop
  | .succeeded => p.status.state = .succeeded ∧ ∃ o, p.output = some o ∧ o.hasFailures = false
  | .closed => p.status.state = .failed ∧ ∃ o, p.output = some o ∧ o.hasFailures = true
  | .failed => p.status.state = .failed ∧ p.output = none

/-- The store of the application tells how its deployment came out. -/
def AppStore.Tells (a : AppStore) : Verdict → Prop
  | .succeeded => a.status.state = .succeeded ∧ ∃ r, a.release = some r
  | .closed | .failed => a.status.state = .failed ∧ a.release = none

/-- A status tells how an activity without a result came out. -/
def StatusRecord.Tells (r : StatusRecord) : Verdict → Prop
  | .succeeded => r.state = .succeeded
  | .closed | .failed => r.state = .failed

namespace Stores

/-- The stores tell how an activity came out. -/
def Tells (s : Stores) : Activity → Verdict → Prop
  | .task (.preflights scope) => (s.preflights scope).Tells
  | .task .deployment => s.app.Tells
  | a => (s.status a).Tells

/-- The store of a task has no result. -/
def Cleared (s : Stores) : Task → Prop
  | .preflights scope => (s.preflights scope).output = none
  | .infrastructure | .airgap => True
  | .deployment => s.app.release = none

/-- The stores are the same but for logs and components. -/
structure Reported (s s' : Stores) : Prop where
  status : ∀ a, s'.status a = s.status a
  cleared : ∀ t, s.Cleared t → s'.Cleared t

theorem Reported.refl (s : Stores) : s.Reported s := ⟨fun _ ↦ rfl, fun _ ↦ id⟩

theorem reported_infra {s : Stores} {i : InfraStore} (h : i.status = s.infra.status) :
    s.Reported { s with infra := i } where
  status a := by
    rcases a with _ | _ | ⟨⟨⟨⟩⟩ | _ | _ | _⟩
    case task.infrastructure => exact h
    all_goals rfl
  cleared t := by rcases t with ⟨⟨⟩⟩ | _ | _ | _ <;> exact id

theorem reported_modifyLog (f : Log → Log) (s : Stores) (t : Task) :
    s.Reported (s.modifyLog f t) where
  status a := by rcases t with _ | _ | _ | _ <;> rcases a with _ | _ | ⟨⟨⟨⟩⟩ | _ | _ | _⟩ <;> rfl
  cleared t' := by
    rcases t with _ | _ | _ | _ <;> rcases t' with ⟨⟨⟩⟩ | _ | _ | _ <;> exact id

end Stores

/-- The state in which an activity has settled that came out so. -/
def Plan.settled (p : Plan S) (a : Activity) (stages : Stages S) : Verdict → Option S
  | .succeeded => some stages.succeeded
  | .closed => p.closedBy a
  | .failed => some stages.failed

def Activity.checks? : Activity → Option PreflightScope
  | task (.preflights scope) => some scope
  | _ => none

def Activity.task? : Activity → Option Task
  | task t => some t
  | _ => none

/-- A naming of the running states. -/
structure Plan.Named (p : Plan S) (o : Options) (task? : S → Option Task) : Prop where
  running : ∀ x ∈ p.activities o, ∀ t ∈ x.1.task?, task? x.2.running = some t
  resting : ∀ s ∈ p.resting o, task? s = none
  /-- Checks that report failures have a gate to close. -/
  gated : ∀ x ∈ p.activities o, ∀ scope ∈ x.1.checks?, (p.gate scope).isSome

namespace Workflow

variable {w : Workflow S}

/-- The workflow has not begun, or the activity that has settled last is told. -/
def Told (w : Workflow S) (s : Stores) (current : S) : Prop :=
  current = w.plan.initial ∨ ∃ a stages v, (a, stages) ∈ w.plan.activities w.options ∧
    w.plan.settled a stages v = some current ∧ s.Tells a v

/-! ### What becomes of the stores -/

/-- The beginning of a task changes its own status only. -/
theorem status_begunIn (r : StatusRecord) (s : Stores) (t t' : Task) :
    (w.begunIn r s t).status (.task t') = if t' = t then r else s.status (.task t') := by
  rcases t with ⟨⟨⟩⟩ | _ | _ | _ <;> rcases t' with ⟨⟨⟩⟩ | _ | _ | _ <;> rfl

theorem cleared_begunIn (r : StatusRecord) (s : Stores) (t : Task) :
    (w.begunIn r s t).Cleared t := by
  rcases t with ⟨⟨⟩⟩ | _ | _ | _ <;> trivial

/-- A report changes neither a status nor a result. -/
theorem run_note_frame (s : Site S) (t : Task) (p : Progress) :
    ∃ payload : Stores, (note t p).run s = ((), { s with payload := payload }) ∧
      s.payload.Reported payload := by
  cases p with
  | line text =>
    exact ⟨s.payload.modifyLog (·.add text) t, by cases t <;> rfl, Stores.reported_modifyLog ..⟩
  | components names | component name state text =>
    cases t with
    | infrastructure => exact ⟨_, rfl, Stores.reported_infra rfl⟩
    | preflights | airgap | deployment => exact ⟨_, rfl, .refl _⟩

section Ended

variable [ToString S]

/-- The end of a task changes its own status only. -/
theorem status_endedIn (now : Timestamp) (s : Stores) (t t' : Task) (outcome : Outcome t.Value) :
    (w.endedIn now s t outcome).status (.task t') =
      if t' = t then w.outcomeStatus now t outcome else s.status (.task t') := by
  rcases t with ⟨⟨⟩⟩ | _ | _ | _ <;> cases outcome <;> rcases t' with ⟨⟨⟩⟩ | _ | _ | _ <;> rfl

theorem outcomeStatus_ne_running (now : Timestamp) (t : Task) (outcome : Outcome t.Value) :
    (w.outcomeStatus now t outcome).state ≠ .running := by
  rcases t with scope | _ | _ | _ <;> cases outcome
  case preflights.returned o =>
    unfold outcomeStatus
    dsimp only
    split <;> nofun
  all_goals nofun

/-- The status tells whether all went well. -/
theorem outcomeStatus_state (now : Timestamp) {t : Task} {outcome : Outcome t.Value} :
    (t.GoesWell outcome → (w.outcomeStatus now t outcome).state = .succeeded) ∧
      (¬ t.GoesWell outcome → (w.outcomeStatus now t outcome).state = .failed) := by
  rcases t with scope | _ | _ | _ <;> cases outcome
  case preflights.returned o =>
    unfold outcomeStatus
    dsimp only
    constructor
    · intro well
      rw [if_neg (Bool.eq_false_iff.1 well)]
    · intro ill
      rw [if_pos (Bool.not_eq_false _ ▸ ill)]
  all_goals first
    | exact ⟨fun _ ↦ rfl, fun ill ↦ (ill trivial).elim⟩
    | exact ⟨fun well ↦ well.elim, fun _ ↦ rfl⟩

/-- A task that has ended is told so. -/
theorem outcomeStatus_terminal (now : Timestamp) (t : Task) (outcome : Outcome t.Value) :
    (w.outcomeStatus now t outcome).state.isTerminal = true := by
  by_cases well : t.GoesWell outcome
  · rw [(w.outcomeStatus_state now).1 well]
    rfl
  · rw [(w.outcomeStatus_state now).2 well]
    rfl

/-- The store of checks has what they have returned. -/
theorem preflights_endedIn (now : Timestamp) (s : Stores) (scope : PreflightScope)
    (o : PreflightOutput) :
    (w.endedIn now s (.preflights scope) (.returned o)).preflights scope =
      ⟨w.outcomeStatus now (.preflights scope) (.returned o), (s.preflights scope).titles,
        some o⟩ := by
  cases scope <;> rfl

/-- A task that had no result tells how it ended. -/
theorem tells_endedIn (now : Timestamp) {s : Stores} {t : Task} (outcome : Outcome t.Value)
    {stages : Stages S} (cleared : s.Cleared t)
    (gated : ∀ scope, t = .preflights scope → (w.plan.gate scope).isSome) :
    ∃ v, w.plan.settled (.task t) stages v = some (w.outcomeState stages t outcome) ∧
      (w.endedIn now s t outcome).Tells (.task t) v := by
  cases t with
  | preflights scope =>
    cases outcome with
    | returned o =>
      obtain ⟨gate, gate_eq⟩ := Option.isSome_iff_exists.1 (gated scope rfl)
      have output_eq := w.preflights_endedIn now s scope o
      unfold outcomeStatus at output_eq
      show ∃ v, _ = some ((w.settledChecks scope o).getD stages.succeeded) ∧
        ((w.endedIn now s (.preflights scope) (.returned o)).preflights scope).Tells v
      rw [output_eq]
      unfold settledChecks
      cases failures : PreflightOutput.hasFailures o with
      | false => exact ⟨.succeeded, rfl, by simp [failures], o, rfl, failures⟩
      | true =>
        have closed :
            w.plan.settled (.task (.preflights scope)) stages .closed = some gate.closed := by
          show (w.plan.gate scope).map (·.closed) = _
          rw [gate_eq]
          rfl
        refine ⟨.closed, ?_, by simp [failures], o, rfl, failures⟩
        rw [closed, gate_eq]
        rfl
    | failed f => exact ⟨.failed, rfl, by cases scope <;> exact ⟨rfl, cleared⟩⟩
    | panicked p => exact ⟨.failed, rfl, by cases scope <;> exact ⟨rfl, cleared⟩⟩
  | infrastructure | airgap =>
    cases outcome with
    | returned u => exact ⟨.succeeded, rfl, rfl⟩
    | failed f => exact ⟨.failed, rfl, rfl⟩
    | panicked p => exact ⟨.failed, rfl, rfl⟩
  | deployment =>
    cases outcome with
    | returned r => exact ⟨.succeeded, rfl, rfl, r, rfl⟩
    | failed f => exact ⟨.failed, rfl, rfl, cleared⟩
    | panicked p => exact ⟨.failed, rfl, rfl, cleared⟩

end Ended
end Workflow

/-! ### The invariant -/

/-- The stores and the job in flight agree, and so do the stores and the engine of a workflow that
waits. -/
structure Session.Agrees (w : Workflow S) (s : Session S) : Prop where
  running_iff : ∀ t, (s.site.payload.status (.task t)).state = .running ↔
    s.job.map (·.call.task) = some t
  cleared : ∀ job, s.job = some job → s.site.payload.Cleared job.call.task
  told : s.job = none → w.Told s.site.payload s.site.engine.current

namespace Session

variable {w : Workflow S} {s : Session S}

/-- At the start the stores agree with the state. -/
theorem start_agrees (w : Workflow S) (values : Option ConfigValues) (now : Timestamp) :
    (Session.start w values now).Agrees w where
  running_iff t := by
    rcases t with ⟨⟨⟩⟩ | _ | _ | _ <;> exact ⟨nofun, nofun⟩
  cleared _ h := nomatch h
  told _ := .inl rfl

/-- The stores of a workflow that waits, after an activity for which a client has waited. -/
theorem Agrees.after_waiting (agrees : s.Agrees w) {a : Activity} {stages : Stages S} {v : Verdict}
    {site : Site S} (has : (a, stages) ∈ w.plan.activities w.options) (idle : s.job = none)
    (current : w.plan.settled a stages v = some site.engine.current)
    (tells : site.payload.Tells a v)
    (status : ∀ t, site.payload.status (.task t) = s.site.payload.status (.task t)) :
    (Session.mk site none).Agrees w where
  running_iff t := by
    show (site.payload.status (.task t)).state = .running ↔ _
    rw [status, agrees.running_iff, idle]
  cleared _ h := nomatch h
  told _ := .inr ⟨a, stages, v, has, current, tells⟩

theorem Agrees.note (agrees : s.Agrees w) (p : Progress) : (s.note p).Agrees w := by
  unfold Session.note
  cases found : s.job with
  | none => exact agrees
  | some job =>
    obtain ⟨payload, ran, reported⟩ := Workflow.run_note_frame s.site job.call.task p
    simp only [does, ran]
    refine ⟨fun t ↦ ?_, fun job' flying ↦ ?_, fun idle ↦ ?_⟩
    · show (payload.status (.task t)).state = .running ↔ _
      rw [reported.status]
      exact agrees.running_iff t
    · exact reported.cleared _ (agrees.cleared job' flying)
    · exact absurd (found.symm.trans idle) (Option.some_ne_none job)

section Steps

variable [DecidableEq S] [ToString S] (sound : w.plan.Sound w.options)

include sound

/-- An action keeps the stores in agreement. -/
theorem Agrees.act (agrees : s.Agrees w) (consistent : s.Consistent w) (a : Action) :
    (s.next w (.act a)).2.Agrees w := by
  have rest (free : s.site.engine.held = none) := (consistent.idle (consistent.no_job free)).2
  have acted := Workflow.act_cases sound consistent.table rest a
  obtain ⟨⟨⟨answer, job⟩, site⟩, ran⟩ : ∃ r, (w.act a).run s.site = r := ⟨_, rfl⟩
  rw [ran] at acted
  rw [(next_act ran).1]
  have passed {a : Activity} {stages : Stages S} {v : Verdict} {c : Counters} {payload : Stores}
      {target : S} (has : (a, stages) ∈ w.plan.activities w.options)
      (free : s.site.engine.held = none) (settled : w.plan.settled a stages v = some target)
      (settles : target ∈ w.plan.outcomes a stages) (tells : payload.Tells a v)
      (status : ∀ t, payload.status (.task t) = s.site.payload.status (.task t)) :
      Agrees w ⟨{ s.site with
        engine := s.site.engine.passed stages.running target s.site.now
        counters := c
        payload := payload }, none.or s.job⟩ := by
    obtain ⟨-, outline_eq, -⟩ := consistent.after_passing sound has free settles c payload
    have idle := consistent.no_job free
    have current := congrArg Outline.current outline_eq
    rw [idle]
    exact agrees.after_waiting has idle (settled.trans (congrArg some current.symm)) tells status
  cases acted with
  | refused a refusal valid untouched =>
    obtain ⟨generation, rfl⟩ := untouched
    exact ⟨agrees.running_iff, agrees.cleared, agrees.told⟩
  | patched has free can accepted =>
    exact passed has free (v := .succeeded) rfl Plan.succeeded_mem_outcomes rfl fun t ↦ by
      rcases t with ⟨⟨⟩⟩ | _ | _ | _ <;> rfl
  | patchRejected has free can rejected =>
    exact passed has free (v := .failed) rfl Plan.failed_mem_outcomes rfl fun t ↦ by
      rcases t with ⟨⟨⟩⟩ | _ | _ | _ <;> rfl
  | configured has free can accepted =>
    exact passed has free (v := .succeeded) rfl Plan.succeeded_mem_outcomes rfl fun t ↦ by
      rcases t with ⟨⟨⟩⟩ | _ | _ | _ <;> rfl
  | configurationRejected has free can rejected =>
    exact passed has free (v := .failed) rfl Plan.failed_mem_outcomes rfl fun t ↦ by
      rcases t with ⟨⟨⟩⟩ | _ | _ | _ <;> rfl
  | @began t ignore through stages has free passes leads =>
    have idle := consistent.no_job free
    refine ⟨fun t' ↦ ?_, ?_, fun h ↦ nomatch h⟩
    · show ((w.begunIn _ _ t).status (.task t')).state = .running ↔
        some (w.callFor _ _ t).task = some t'
      rw [Workflow.status_begunIn, Workflow.task_callFor, Option.some.injEq]
      split
      · rename_i same
        exact ⟨fun _ ↦ same.symm, fun _ ↦ rfl⟩
      · rename_i other
        rw [agrees.running_iff, idle]
        exact ⟨nofun, fun same ↦ absurd same.symm other⟩
    · rintro job ⟨⟩
      show (w.begunIn _ _ t).Cleared (w.callFor _ _ t).task
      rw [Workflow.task_callFor]
      exact Workflow.cleared_begunIn ..

/-- The end of a job keeps the stores in agreement. -/
theorem Agrees.complete (agrees : s.Agrees w) (consistent : s.Consistent w)
    (gated : ∀ x ∈ w.plan.activities w.options, ∀ scope ∈ x.1.checks?, (w.plan.gate scope).isSome)
    (outcome : (c : Call) → Outcome c.task.Value) :
    (s.next w (.complete outcome)).2.Agrees w := by
  cases found : s.job with
  | none =>
    have next_eq : (s.next w (.complete outcome)).2 = s := by
      show s.complete w outcome = s
      unfold Session.complete
      rw [found]
    rwa [next_eq]
  | some job =>
    obtain ⟨-, -, has⟩ := consistent.busy job found
    rw [next_complete sound consistent found]
    refine ⟨fun t ↦ ?_, (fun _ h ↦ nomatch h), fun _ ↦ ?_⟩
    · show ((w.endedIn _ _ _ _).status (.task t)).state = .running ↔ none = some t
      rw [Workflow.status_endedIn]
      refine ⟨fun running ↦ ?_, nofun⟩
      split at running
      · exact absurd running (Workflow.outcomeStatus_ne_running _ _ _)
      · rename_i other
        have flying := (agrees.running_iff t).1 running
        rw [found] at flying
        exact absurd (Option.some.inj flying).symm other
    · have gate (scope : PreflightScope) (checks : job.call.task = .preflights scope) :
          (w.plan.gate scope).isSome := by
        rw [checks] at has
        exact gated _ has scope rfl
      obtain ⟨v, settled, tells⟩ :=
        Workflow.tells_endedIn s.site.now (outcome job.call) (agrees.cleared job found) gate
      exact .inr ⟨_, _, v, has, settled, tells⟩

/-- Any events keep the stores in agreement. -/
theorem Agrees.after (agrees : s.Agrees w) (consistent : s.Consistent w)
    (gated : ∀ x ∈ w.plan.activities w.options, ∀ scope ∈ x.1.checks?, (w.plan.gate scope).isSome)
    (events : List Event) : (s.after w events).Agrees w := by
  induction events generalizing s with
  | nil => exact agrees
  | cons e more ih =>
    refine ih ?_ (next_follows sound consistent e).1
    cases e with
    | act a => exact agrees.act sound consistent a
    | note p => exact agrees.note p
    | tick now => exact ⟨agrees.running_iff, agrees.cleared, agrees.told⟩
    | complete outcome => exact agrees.complete sound consistent gated outcome

end Steps

/-- What clients are told agrees with the state of the engine. -/
structure StoresAgree (task? : S → Option Task) (Told : Stores → S → Prop) (s : Session S) :
    Prop where
  /-- A task is marked as running exactly in its running state. -/
  running_iff : ∀ t, (s.site.payload.status (.task t)).state = .running ↔
    task? s.site.engine.current = some t
  /-- When the lock is free, the stores tell what has come out. -/
  told : s.site.engine.held = none → Told s.site.payload s.site.engine.current

theorem Agrees.storesAgree {task? : S → Option Task} {Told : Stores → S → Prop}
    (agrees : s.Agrees w) (consistent : s.Consistent w) (named : w.plan.Named w.options task?)
    (tells : ∀ stores current, w.Told stores current → Told stores current) :
    s.StoresAgree task? Told where
  running_iff t := by
    rw [agrees.running_iff]
    cases found : s.job with
    | none => rw [named.resting _ (consistent.idle found).2, Option.map_none]
    | some job =>
      obtain ⟨-, running, has⟩ := consistent.busy job found
      rw [running, named.running _ has _ rfl, Option.map_some]
  told free := tells _ _ (agrees.told (consistent.no_job free))

end Session

/-- The stores agree with the state in every session that can be reached. -/
theorem Workflow.storesAgree_after [DecidableEq S] [ToString S] {w : Workflow S}
    (sound : w.plan.Sound w.options) {task? : S → Option Task} {Told : Stores → S → Prop}
    (named : w.plan.Named w.options task?)
    (tells : ∀ stores current, w.Told stores current → Told stores current)
    (values : Option ConfigValues) (now : Timestamp) (events : List Event) :
    (w.after values now events).StoresAgree task? Told := by
  have agrees : (w.after values now events).Agrees w :=
    (Session.start_agrees w values now).after sound (Session.start_consistent w values now)
      named.gated events
  exact agrees.storesAgree (w.consistent_after sound values now events) named tells

/-! ### Both workflows -/

theorem stages_of_stagesWhen {supported : Bool} {what : String} {stages stages' : Stages S}
    (h : stagesWhen supported what stages = .ok stages') : stages' = stages := by
  unfold stagesWhen at h
  split at h
  · exact (Except.ok.inj h).symm
  · nomatch h

namespace InstallState

def task? : InstallState → Option Task
  | hostPreflightsRunning => some (.preflights .host)
  | infrastructureInstalling => some .infrastructure
  | airgapProcessing => some .airgap
  | appPreflightsRunning => some (.preflights .app)
  | appInstalling => some .deployment
  | _ => none

/-- What the stores of an installation tell when it waits in a state. -/
def Told (s : Stores) : InstallState → Prop
  | new => True
  | applicationConfigured => s.config.status.state = .succeeded
  | applicationConfigurationFailed => s.config.status.state = .failed
  | installationConfigured => s.installation.status.state = .succeeded
  | installationConfigurationFailed => s.installation.status.state = .failed
  | hostPreflightsSucceeded => s.hostPreflights.Tells .succeeded
  | hostPreflightsFailed => s.hostPreflights.Tells .closed
  | hostPreflightsExecutionFailed => s.hostPreflights.Tells .failed
  | infrastructureInstalled => s.infra.status.state = .succeeded
  | infrastructureInstallFailed => s.infra.status.state = .failed
  | airgapProcessed => s.airgap.status.state = .succeeded
  | airgapProcessingFailed => s.airgap.status.state = .failed
  | appPreflightsSucceeded => s.appPreflights.Tells .succeeded
  | appPreflightsFailed => s.appPreflights.Tells .closed
  | appPreflightsExecutionFailed => s.appPreflights.Tells .failed
  | succeeded => s.app.Tells .succeeded
  | appInstallFailed => s.app.Tells .failed
  | _ => False

theorem plan_named (o : Options) : plan.Named o task? := by
  obtain ⟨⟨⟩, ⟨⟩, ⟨⟩, ⟨⟩⟩ := o
  all_goals exact
    { running := by decide
      resting := by decide
      gated := by decide }

theorem told_of_told {options : Options} {schema : AppConfigSchema}
    {titles : PreflightScope → List String} {stores : Stores} {current : InstallState}
    (h : (Workflow.install options schema titles).Told stores current) : Told stores current := by
  rcases h with rfl | ⟨a, stages, v, has, settled, tells⟩
  · trivial
  · have supported : InstallState.stages options a = .ok stages := Plan.mem_activities.1 has
    rcases a with _ | _ | scope | _ | _ | _
    case configureApp | configureInstallation | task.infrastructure | task.deployment =>
      obtain rfl := Except.ok.inj supported
      cases v <;> cases settled <;> exact tells
    case task.airgap =>
      obtain rfl := stages_of_stagesWhen supported
      cases v <;> cases settled <;> exact tells
    case task.preflights =>
      cases scope with
      | host =>
        obtain rfl := stages_of_stagesWhen supported
        cases v <;> cases settled <;> exact tells
      | app =>
        obtain rfl := Except.ok.inj supported
        cases v <;> cases settled <;> exact tells

end InstallState

namespace UpgradeState

def task? : UpgradeState → Option Task
  | airgapProcessing => some .airgap
  | infrastructureUpgrading => some .infrastructure
  | appPreflightsRunning => some (.preflights .app)
  | appUpgrading => some .deployment
  | _ => none

/-- What the stores of an upgrade tell when it waits in a state. -/
def Told (s : Stores) : UpgradeState → Prop
  | new => True
  | applicationConfigured => s.config.status.state = .succeeded
  | applicationConfigurationFailed => s.config.status.state = .failed
  | airgapProcessed => s.airgap.status.state = .succeeded
  | airgapProcessingFailed => s.airgap.status.state = .failed
  | infrastructureUpgraded => s.infra.status.state = .succeeded
  | infrastructureUpgradeFailed => s.infra.status.state = .failed
  | appPreflightsSucceeded => s.appPreflights.Tells .succeeded
  | appPreflightsFailed => s.appPreflights.Tells .closed
  | appPreflightsExecutionFailed => s.appPreflights.Tells .failed
  | succeeded => s.app.Tells .succeeded
  | appUpgradeFailed => s.app.Tells .failed
  | _ => False

theorem plan_named (o : Options) : plan.Named o task? := by
  obtain ⟨⟨⟩, ⟨⟩, ⟨⟩, ⟨⟩⟩ := o
  all_goals exact
    { running := by decide
      resting := by decide
      gated := by decide }

theorem told_of_told {options : Options} {schema : AppConfigSchema}
    {titles : PreflightScope → List String} {stores : Stores} {current : UpgradeState}
    (h : (Workflow.upgrade options schema titles).Told stores current) : Told stores current := by
  rcases h with rfl | ⟨a, stages, v, has, settled, tells⟩
  · trivial
  · have supported : UpgradeState.stages options a = .ok stages := Plan.mem_activities.1 has
    rcases a with _ | _ | scope | _ | _ | _
    case configureApp | task.deployment =>
      obtain rfl := Except.ok.inj supported
      cases v <;> cases settled <;> exact tells
    case configureInstallation => nomatch supported
    case task.infrastructure | task.airgap =>
      obtain rfl := stages_of_stagesWhen supported
      cases v <;> cases settled <;> exact tells
    case task.preflights =>
      cases scope with
      | host => nomatch supported
      | app =>
        obtain rfl := Except.ok.inj supported
        cases v <;> cases settled <;> exact tells

end UpgradeState

/-- Between two events of an installation or an upgrade, the stores agree with the state. -/
theorem stores_agree (options : Options) (schema : AppConfigSchema)
    (titles : PreflightScope → List String) (values : Option ConfigValues) (now : Timestamp)
    (events : List Event) :
    ((Workflow.install options schema titles).after values now events).StoresAgree
        InstallState.task? InstallState.Told ∧
      ((Workflow.upgrade options schema titles).after values now events).StoresAgree
        UpgradeState.task? UpgradeState.Told := by
  constructor
  · exact Workflow.storesAgree_after (InstallState.plan_sound options)
      (InstallState.plan_named options) (fun _ _ ↦ InstallState.told_of_told) values now events
  · exact Workflow.storesAgree_after (UpgradeState.plan_sound options)
      (UpgradeState.plan_named options) (fun _ _ ↦ UpgradeState.told_of_told) values now events

end Rollout
