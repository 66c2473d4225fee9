import Rollout.Proofs.Operation
import Rollout.Proofs.Plan
import Rollout.Workflow.Action

/-!
# Runs of actions

What the actions of a workflow do when nobody interferes.  An action is refused, or it passes from
the state in which it finds the workflow, over at most one bypass, into its running state; then a
configuration settles at once and a task leaves its job behind.
-/

namespace Rollout

variable {S : Type}

namespace Attempt

variable {α β : Type}

/-- The result of an attempt, and what it leaves. -/
def on (x : Attempt S α) (s : Site S) : Except (ActionError S) α × Site S := Proc.run x s

@[simp] theorem on_liftM (p : Proc (Site S) α) (s : Site S) :
    (liftM p : Attempt S α).on s = (.ok (p.run s).1, (p.run s).2) := by
  show (p >>= fun a ↦ pure (Except.ok a)).run s = _
  rw [Proc.run_bind]
  rfl

@[simp] theorem on_ofOperation (p : Proc (Site S) (Except (OperationError S) α)) (s : Site S) :
    (ofOperation p).on s = ((p.run s).1.mapError .operation, (p.run s).2) := by
  show (p >>= fun r ↦ pure (r.mapError ActionError.operation)).run s = _
  rw [Proc.run_bind]
  rfl

/-- An attempt goes on after a step that was not refused, and ends with one that was. -/
theorem on_bind (x : Attempt S α) (k : α → Attempt S β) (s : Site S) :
    (x >>= k).on s =
      match x.on s with
      | (.ok a, s') => (k a).on s'
      | (.error e, s') => (.error e, s') := by
  show (x.run >>= fun r ↦ ExceptT.bindCont k r).run s = _
  rw [Proc.run_bind]
  show _ = match x.run.run s with
    | (.ok a, s') => (k a).on s'
    | (.error e, s') => (.error e, s')
  obtain ⟨⟨e⟩ | ⟨a⟩, s'⟩ := x.run.run s <;> rfl

theorem on_bind_ok {x : Attempt S α} {k : α → Attempt S β} {s s' : Site S} {a : α}
    (h : x.on s = (.ok a, s')) : (x >>= k).on s = (k a).on s' := by
  rw [on_bind, h]

theorem on_bind_error {x : Attempt S α} {k : α → Attempt S β} {s s' : Site S} {e : ActionError S}
    (h : x.on s = (.error e, s')) : (x >>= k).on s = (.error e, s') := by
  rw [on_bind, h]

end Attempt

/-- A task succeeds, and its checks, if it is one of checks, report no failure. -/
def Task.GoesWell : (t : Task) → Outcome t.Value → Prop
  | .preflights _, (.returned o : Outcome PreflightOutput) => o.hasFailures = false
  | _, .returned _ => True
  | _, .failed _ | _, .panicked _ => False

namespace Workflow

variable {w : Workflow S} {s : Site S}

theorem on_stages_ok {a : Activity} {stages : Stages S}
    (h : w.plan.stages w.options a = .ok stages) : (w.stages a).on s = (.ok stages, s) := by
  unfold Workflow.stages
  rw [h]
  rfl

theorem on_stages_error {a : Activity} {what : String}
    (h : w.plan.stages w.options a = .error what) :
    (w.stages a).on s = (.error (.unsupported what w.plan.mode w.options.target), s) := by
  unfold Workflow.stages
  rw [h]
  rfl

/-! ### What is stored -/

/-- A patch with which the values are acceptable is stored, and answered with the defaults filled
in. -/
theorem run_mergePatch_accepted {patch : ConfigValues}
    (h : w.schema.validate (AppConfigSchema.merge s.payload.values patch) = .ok ()) :
    (w.mergePatch patch).run s =
      (.returned (w.schema.resolve (AppConfigSchema.merge s.payload.values patch), none),
        { s with payload := { s.payload with
          config.result := some (AppConfigSchema.merge s.payload.values patch) } }) := by
  unfold mergePatch
  simp only [Site.look, Proc.run_bind, Proc.run_read, h]
  rfl

/-- A patch with which the values are not acceptable fails and leaves the stores alone. -/
theorem run_mergePatch_rejected {patch : ConfigValues} {e : ValidationError}
    (h : w.schema.validate (AppConfigSchema.merge s.payload.values patch) = .error e) :
    (w.mergePatch patch).run s = (.failed (.validation e), s) := by
  unfold mergePatch
  simp only [Site.look, Proc.run_bind, Proc.run_read, h]
  rfl

/-- Acceptable settings are stored and answered as they are. -/
theorem run_storeSettings_accepted {settings : InstallationConfig}
    (h : settings.validate = .ok ()) :
    (storeSettings settings : Proc (Site S) _).run s = (.returned (settings, none),
      { s with payload := { s.payload with installation.result := some settings } }) := by
  unfold storeSettings
  rw [h]
  rfl

/-- Settings that are not acceptable fail and leave the stores alone. -/
theorem run_storeSettings_rejected {settings : InstallationConfig} {e : ValidationError}
    (h : settings.validate = .error e) :
    (storeSettings settings : Proc (Site S) _).run s = (.failed (.validation e), s) := by
  unfold storeSettings
  rw [h]
  rfl

/-! ### What a task begins with -/

/-- What the collaborator of a task is asked to do. -/
def callFor (w : Workflow S) (values : ConfigValues) (settings : InstallationConfig) : Task → Call
  | .preflights scope => .preflights scope
  | .infrastructure =>
    match w.plan.mode with
    | .install => .installInfrastructure settings
    | .upgrade => .upgradeInfrastructure
  | .airgap => .processAirgap
  | .deployment =>
    match w.plan.mode with
    | .install => .installApp (w.schema.resolve values)
    | .upgrade => .upgradeApp (w.schema.resolve values)

@[simp] theorem task_callFor (values : ConfigValues) (settings : InstallationConfig) (t : Task) :
    (w.callFor values settings t).task = t := by
  unfold callFor
  cases t with
  | preflights scope => rfl
  | infrastructure => cases w.plan.mode <;> rfl
  | airgap => rfl
  | deployment => cases w.plan.mode <;> rfl

/-- The stores when a task begins: its own is fresh and running. -/
def begunIn (w : Workflow S) (running : StatusRecord) (s : Stores) : Task → Stores
  | .preflights scope => s.modifyPreflights (fun _ ↦ ⟨running, w.titles scope, none⟩) scope
  | .infrastructure => { s with infra := ⟨running, [], {}⟩ }
  | .airgap => { s with airgap := ⟨running, {}⟩ }
  | .deployment => { s with app := ⟨running, none, {}⟩ }

@[simp] theorem values_begunIn (r : StatusRecord) (s : Stores) (t : Task) :
    (w.begunIn r s t).values = s.values := by
  rcases t with ⟨⟨⟩⟩ | _ | _ | _ <;> rfl

@[simp] theorem settings_begunIn (r : StatusRecord) (s : Stores) (t : Task) :
    (w.begunIn r s t).settings = s.settings := by
  rcases t with ⟨⟨⟩⟩ | _ | _ | _ <;> rfl

def acceptedStatus (w : Workflow S) (t : Task) (now : Timestamp) : StatusRecord :=
  ⟨.running, (w.plan.labels t).running, now⟩

/-- A task that has begun hands out a job whose call takes what the stores hold at that moment. -/
theorem run_launch (t : Task) (r : Running S) :
    (w.launch t r).run s =
      (⟨w.acceptedStatus t s.now, ⟨r, w.callFor s.payload.values s.payload.settings t⟩⟩,
        { s with payload := w.begunIn (w.acceptedStatus t s.now) s.payload t }) := by
  unfold launch prepare callFor
  cases t with
  | preflights scope => cases scope <;> rfl
  | infrastructure => cases w.plan.mode <;> rfl
  | airgap => rfl
  | deployment => cases w.plan.mode <;> rfl

/-- A report changes neither the values nor the settings. -/
theorem run_note (t : Task) (p : Progress) :
    ∃ payload : Stores, (note t p).run s = ((), { s with payload := payload }) ∧
      payload.values = s.payload.values ∧ payload.settings = s.payload.settings := by
  rcases t with scope | _ | _ | _ <;> cases p <;> exact ⟨_, rfl, rfl, rfl⟩

/-! ### What a task ends with -/

/-- The state in which a task settles. -/
def outcomeState (w : Workflow S) (stages : Stages S) : (t : Task) → Outcome t.Value → S
  | .preflights scope, (.returned o : Outcome PreflightOutput) =>
    (w.settledChecks scope o).getD stages.succeeded
  | .infrastructure, .returned _ | .airgap, .returned _ | .deployment, .returned _ =>
    stages.succeeded
  | _, .failed _ | _, .panicked _ => stages.failed

/-- A task settles in one of its outcomes. -/
theorem outcomeState_mem (stages : Stages S) (t : Task) (outcome : Outcome t.Value) :
    w.outcomeState stages t outcome ∈ w.plan.outcomes (.task t) stages := by
  cases t with
  | preflights scope =>
    cases outcome with
    | returned o =>
      show (w.settledChecks scope o).getD stages.succeeded ∈ _
      unfold settledChecks
      split
      · cases gated : w.plan.gate scope with
        | none => exact Plan.succeeded_mem_outcomes
        | some gate => exact Plan.closed_mem_outcomes gated
      · exact Plan.succeeded_mem_outcomes
    | failed f => exact Plan.failed_mem_outcomes
    | panicked p => exact Plan.failed_mem_outcomes
  | infrastructure | airgap | deployment =>
    cases outcome with
    | returned v => exact Plan.succeeded_mem_outcomes
    | failed f => exact Plan.failed_mem_outcomes
    | panicked p => exact Plan.failed_mem_outcomes

/-- The stores with what a collaborator returned. -/
def keptIn (s : Stores) : (t : Task) → Outcome t.Value → Stores
  | .preflights scope, (.returned o : Outcome PreflightOutput) =>
    s.modifyPreflights (fun p ↦ { p with output := some o }) scope
  | .deployment, (.returned r : Outcome AppRelease) => { s with app.release := some r }
  | _, _ => s

section Ended

variable [ToString S]

def outcomeStatus (w : Workflow S) (now : Timestamp) :
    (t : Task) → Outcome t.Value → StatusRecord
  | .preflights scope, (.returned o : Outcome PreflightOutput) =>
    if o.hasFailures then ⟨.failed, checksFailedLabel scope, now⟩
    else ⟨.succeeded, (w.plan.labels (.preflights scope)).succeeded, now⟩
  | .infrastructure, .returned _ => ⟨.succeeded, (w.plan.labels .infrastructure).succeeded, now⟩
  | .airgap, .returned _ => ⟨.succeeded, (w.plan.labels .airgap).succeeded, now⟩
  | .deployment, .returned _ => ⟨.succeeded, (w.plan.labels .deployment).succeeded, now⟩
  | t, .failed f =>
    ⟨.failed, (w.plan.labels t).failed ++ ": " ++ (.failed f : OperationError S).message, now⟩
  | t, .panicked p =>
    ⟨.failed, (w.plan.labels t).failed ++ ": " ++ (.panicked p.message : OperationError S).message,
      now⟩

/-- The stores when a task has ended. -/
def endedIn (w : Workflow S) (now : Timestamp) (s : Stores) (t : Task) (outcome : Outcome t.Value) :
    Stores :=
  (keptIn s t outcome).setStatus (w.outcomeStatus now t outcome) (.task t)

@[simp] theorem values_endedIn (now : Timestamp) (s : Stores) (t : Task)
    (outcome : Outcome t.Value) : (w.endedIn now s t outcome).values = s.values := by
  rcases t with ⟨⟨⟩⟩ | _ | _ | _ <;> cases outcome <;> rfl

@[simp] theorem settings_endedIn (now : Timestamp) (s : Stores) (t : Task)
    (outcome : Outcome t.Value) : (w.endedIn now s t outcome).settings = s.settings := by
  rcases t with ⟨⟨⟩⟩ | _ | _ | _ <;> cases outcome <;> rfl

end Ended

theorem run_answer {α : Type} (attempt : Attempt S α) (f : α → Answer S × Option (Job S)) :
    (answer attempt f).run s = match attempt.on s with
      | (.ok a, s') => (f a, s')
      | (.error e, s') => ((.refused e, none), s') := by
  unfold answer
  rw [Proc.run_bind]
  show _ = match attempt.run.run s with
    | (.ok a, s') => (f a, s')
    | (.error e, s') => ((.refused e, none), s')
  obtain ⟨⟨e⟩ | ⟨a⟩, s'⟩ := attempt.run.run s <;> rfl

/-! ### Acceptance -/

theorem on_acquire_free (stages : Stages S) (free : s.engine.held = none) :
    (Attempt.ofOperation (Guarded.acquire stages)).on s =
      (.ok ⟨s.engine.nextLock, stages⟩, { s with engine := s.engine.taken }) := by
  rw [Attempt.on_ofOperation, Guarded.run_acquire_free stages free]
  rfl

/-- The engine after these transitions. -/
def movedVia (e : Engine S) (through : Option S) (target : S) (now : Timestamp) : Engine S :=
  (through.elim e (e.moved · now)).moved target now

section MovedVia

variable (e : Engine S) (through : Option S) (target : S) (now : Timestamp)

@[simp] theorem table_movedVia : (movedVia e through target now).table = e.table := by
  cases through <;> rfl

@[simp] theorem isCurrent_movedVia (lock : Lock) :
    (movedVia e through target now).isCurrent lock = e.isCurrent lock := by
  cases through <;> rfl

end MovedVia

variable [DecidableEq S]

/-- The state through which a task passes over failed checks, as the current state decides. -/
def bypassFrom (w : Workflow S) (ignore : Bool) (t : Task) (current : S) :
    Except (ActionError S) (Option S) :=
  match w.plan.gateOf (.task t) with
  | none => .ok none
  | some (scope, gate) =>
    if current ≠ gate.closed then .ok none
    else if ignore && w.options.allowsIgnoring scope then .ok (some gate.bypassed)
    else .error (.bypassNotAllowed scope)

/-- Whether failed checks are passed over depends on the current state only. -/
theorem on_bypass (ignore : Bool) (t : Task) :
    (w.bypass ignore t).on s = (w.bypassFrom ignore t s.engine.current, s) := by
  unfold bypass bypassFrom
  simp only [Plan.gateOf]
  cases t.gatedBy?.bind fun scope ↦ (w.plan.gate scope).map (scope, ·) with
  | none => rfl
  | some sg =>
    obtain ⟨scope, gate⟩ := sg
    simp only [Attempt.on_bind, Attempt.on_liftM, Proc.run_read]
    split
    · rfl
    · split <;> rfl

/-- Failed checks are passed over only where there are some, on demand and with permission. -/
theorem bypassFrom_some {ignore : Bool} {t : Task} {current b : S}
    (h : w.bypassFrom ignore t current = .ok (some b)) :
    ∃ scope gate, w.plan.gateOf (.task t) = some (scope, gate) ∧ current = gate.closed ∧
      b = gate.bypassed ∧ ignore = true ∧ w.options.allowsIgnoring scope = true := by
  unfold bypassFrom at h
  cases found : w.plan.gateOf (.task t) with
  | none => simp [found] at h
  | some g =>
    obtain ⟨scope, gate⟩ := g
    simp only [found] at h
    split at h
    · simp at h
    · rename_i closed
      split at h
      · rename_i allowed
        obtain ⟨wanted, permitted⟩ := Bool.and_eq_true_iff.1 allowed
        refine ⟨scope, gate, rfl, Decidable.not_not.1 closed, ?_, wanted, permitted⟩
        simpa using h.symm
      · simp at h

/-- There is one reason only to refuse that failed checks are passed over: it is not allowed. -/
theorem bypassFrom_error {ignore : Bool} {t : Task} {current : S} {e : ActionError S}
    (h : w.bypassFrom ignore t current = .error e) : ∃ scope, e = .bypassNotAllowed scope := by
  unfold bypassFrom at h
  cases found : w.plan.gateOf (.task t) with
  | none => simp [found] at h
  | some g =>
    simp only [found] at h
    split at h
    · simp at h
    · split at h
      · simp at h
      · exact ⟨g.1, by simpa using h.symm⟩

/-- A lock that is out refuses the start, which is counted as a rejection and changes nothing else.
-/
theorem on_enter_busy (stages : Stages S) (through : Option S) (busy : s.engine.held ≠ none) :
    (enter stages through).on s = (.error (.operation (.engine .busy)),
      { s with counters := s.counters.record .rejected }) := by
  apply Attempt.on_bind_error
  rw [Attempt.on_ofOperation, Guarded.run_acquire_busy stages busy]
  rfl

/-- With a free lock and an edge to the running state, the start takes the lock, makes the
transitions and is counted. -/
theorem on_enter_ok {stages : Stages S} {through : Option S} (free : s.engine.held = none)
    (leads : s.engine.table.Leads s.engine.current through stages.running) :
    (enter stages through).on s = (.ok ⟨s.engine.nextLock, stages⟩,
      { s with
        engine := movedVia s.engine.taken through stages.running s.now
        counters := s.counters.record .started }) := by
  unfold enter
  rw [Attempt.on_bind_ok (on_acquire_free stages free)]
  cases through with
  | none =>
    show (Attempt.ofOperation (Guarded.start _)).on _ = _
    rw [Attempt.on_ofOperation, Guarded.run_start_ok]
    · rfl
    · simp
    · exact leads
  | some b =>
    obtain ⟨first, second⟩ := leads
    simp only [Attempt.on_bind, Attempt.on_liftM]
    rw [Guarded.run_transition_ok]
    · show (Attempt.ofOperation (Guarded.start _)).on _ = _
      rw [Attempt.on_ofOperation, Guarded.run_start_ok]
      · rfl
      · exact s.engine.isCurrent_taken
      · exact second
    · exact s.engine.isCurrent_taken
    · exact first

/-- A start that the table does not allow leaves the engine as it was, unless the state of failure
can be entered from there. -/
theorem on_enter_refused {stages : Stages S} (free : s.engine.held = none)
    (cannot : s.engine.canTransition stages.running = false)
    (stays : s.engine.canTransition stages.failed = false) :
    (enter stages none).on s =
      (.error (.operation (.engine (.invalidTransition s.engine.current stages.running))),
        { s with
          engine := s.engine.taken.freed
          counters := s.counters.record .rejected }) := by
  unfold enter
  rw [Attempt.on_bind_ok (on_acquire_free stages free)]
  show (Attempt.ofOperation (Guarded.start _)).on _ = _
  rw [Attempt.on_ofOperation, Guarded.run_start_refused]
  · show _ = (_, { s with engine := _, counters := _ })
    have stays' : s.engine.taken.canTransition stages.failed = false := stays
    rw [Engine.settled_of_cannot stays']
    rfl
  · simp
  · exact cannot

/-! ### Configuration -/

section Configuration

variable [ToString S]

/-- A configuration that starts is carried through. -/
theorem on_settleNow {α : Type} {a : Activity} {running succeeded : String}
    {work : Proc (Site S) (Outcome (α × Option S))} {stages : Stages S}
    (outcome : Outcome (α × Option S)) (payload : Stores)
    (supported : w.plan.stages w.options a = .ok stages) (free : s.engine.held = none)
    (can : s.engine.canTransition stages.running = true)
    (works : ∀ s' : Site S, s'.payload = s.payload.setStatus ⟨.running, running, s.now⟩ a →
      work.run s' = (outcome, { s' with payload := payload })) :
    (w.settleNow a running succeeded work).on s =
      ((outcome.map Prod.fst).result.mapError .operation,
        { s with
          engine := s.engine.passed stages.running
            ((⟨s.engine.nextLock, stages⟩ : Running S).settledState outcome) s.now
          counters := (s.counters.record .started).record outcome.tally
          payload := payload.setStatus (match (outcome.map Prod.fst).result with
            | .ok _ => ⟨.succeeded, succeeded, s.now⟩
            | .error (e : OperationError S) => ⟨.failed, e.message, s.now⟩) a }) := by
  have leads : s.engine.table.Leads s.engine.current none stages.running := can
  unfold settleNow
  rw [Attempt.on_bind_ok (on_stages_ok supported), Attempt.on_bind_ok (on_enter_ok free leads),
    Attempt.on_ofOperation]
  simp only [Proc.run_bind, Site.mark, Proc.run_modify, Running.run]
  rw [works _ rfl, Running.run_conclude _ _ payload]
  · cases (outcome.map Prod.fst).result <;> rfl
  · exact s.engine.isCurrent_taken
  · rfl

/-- Why an operation failed whose input was rejected. -/
def rejection (e : ValidationError) : OperationError S := .failed (.validation e)

section Patch

variable {stages : Stages S} (supported : w.plan.stages w.options .configureApp = .ok stages)
  (free : s.engine.held = none) (can : s.engine.canTransition stages.running = true)
  {patch : ConfigValues}

include supported free can

/-- A patch that leads to acceptable values is stored. -/
theorem on_patchValues_accepted
    (h : w.schema.validate (AppConfigSchema.merge s.payload.values patch) = .ok ()) :
    (w.patchValues patch).on s =
      (.ok (w.schema.resolve (AppConfigSchema.merge s.payload.values patch)),
        { s with
          engine := s.engine.passed stages.running stages.succeeded s.now
          counters := (s.counters.record .started).record .succeeded
          payload := { s.payload with config :=
            { status := ⟨.succeeded, "Application configuration applied", s.now⟩
              result := some (AppConfigSchema.merge s.payload.values patch) } } }) := by
  unfold patchValues
  rw [on_settleNow
    (.returned (w.schema.resolve (AppConfigSchema.merge s.payload.values patch), none))
    { s.payload with config :=
      { status := ⟨.running, "Applying application configuration", s.now⟩
        result := some (AppConfigSchema.merge s.payload.values patch) } } supported free can]
  · rfl
  · intro s' hs
    rw [run_mergePatch_accepted (by rw [hs]; exact h), hs]
    rfl

/-- A patch that leads to other values changes only the status. -/
theorem on_patchValues_rejected {e : ValidationError}
    (h : w.schema.validate (AppConfigSchema.merge s.payload.values patch) = .error e) :
    (w.patchValues patch).on s =
      (.error (.operation (rejection e)),
        { s with
          engine := s.engine.passed stages.running stages.failed s.now
          counters := (s.counters.record .started).record .failed
          payload := { s.payload with config.status :=
            ⟨.failed, (rejection e : OperationError S).message, s.now⟩ } }) := by
  unfold patchValues
  rw [on_settleNow (.failed (.validation e))
    { s.payload with config.status := ⟨.running, "Applying application configuration", s.now⟩ }
    supported free can]
  · rfl
  · intro s' hs
    rw [run_mergePatch_rejected (by rw [hs]; exact h)]
    exact congrArg (fun p ↦ (_, { s' with payload := p })) hs

end Patch

section Installation

variable {stages : Stages S}
  (supported : w.plan.stages w.options .configureInstallation = .ok stages)
  (free : s.engine.held = none) (can : s.engine.canTransition stages.running = true)
  {settings : InstallationConfig}

include supported free can

/-- Acceptable settings are stored. -/
theorem on_configureInstallation_accepted (h : settings.validate = .ok ()) :
    (w.configureInstallation settings).on s =
      (.ok settings,
        { s with
          engine := s.engine.passed stages.running stages.succeeded s.now
          counters := (s.counters.record .started).record .succeeded
          payload := { s.payload with installation :=
            { status := ⟨.succeeded, "Installation configured", s.now⟩
              result := some settings } } }) := by
  unfold configureInstallation
  rw [on_settleNow (.returned (settings, none))
    { s.payload with installation :=
      { status := ⟨.running, "Configuring installation", s.now⟩
        result := some settings } } supported free can]
  · rfl
  · intro s' hs
    rw [run_storeSettings_accepted h, hs]
    rfl

/-- Other settings change only the status. -/
theorem on_configureInstallation_rejected {e : ValidationError} (h : settings.validate = .error e) :
    (w.configureInstallation settings).on s =
      (.error (.operation (rejection e)),
        { s with
          engine := s.engine.passed stages.running stages.failed s.now
          counters := (s.counters.record .started).record .failed
          payload := { s.payload with installation.status :=
            ⟨.failed, (rejection e : OperationError S).message, s.now⟩ } }) := by
  unfold configureInstallation
  rw [on_settleNow (.failed (.validation e))
    { s.payload with installation.status := ⟨.running, "Configuring installation", s.now⟩ }
    supported free can]
  · rfl
  · intro s' hs
    rw [run_storeSettings_rejected h]
    exact congrArg (fun p ↦ (_, { s' with payload := p })) hs

end Installation
end Configuration

/-! ### Tasks -/

/-- A task begins if the workflow has it, failed checks do not stand in its way, the lock is free
and the table leads to its running state. -/
theorem on_begin_ok {t : Task} {ignore : Bool} {through : Option S} {stages : Stages S}
    (supported : w.plan.stages w.options (.task t) = .ok stages)
    (passes : w.bypassFrom ignore t s.engine.current = .ok through)
    (free : s.engine.held = none)
    (leads : s.engine.table.Leads s.engine.current through stages.running) :
    (w.begin t ignore).on s =
      (.ok ⟨w.acceptedStatus t s.now,
          ⟨⟨s.engine.nextLock, stages⟩, w.callFor s.payload.values s.payload.settings t⟩⟩,
        { s with
          engine := movedVia s.engine.taken through stages.running s.now
          counters := s.counters.record .started
          payload := w.begunIn (w.acceptedStatus t s.now) s.payload t }) := by
  unfold Workflow.begin
  rw [Attempt.on_bind_ok (on_stages_ok supported), Attempt.on_bind_ok
    ((on_bypass ignore t).trans (congrArg (·, s) passes)), Attempt.on_bind_ok
    (on_enter_ok free leads), Attempt.on_liftM, run_launch]

variable [ToString S]

def keep : (t : Task) → Outcome t.Value → Proc (Site S) Unit
  | .preflights scope, (.returned o : Outcome PreflightOutput) =>
    Site.write fun s ↦ s.modifyPreflights (fun p ↦ { p with output := some o }) scope
  | .deployment, (.returned r : Outcome AppRelease) =>
    Site.write fun s ↦ { s with app.release := some r }
  | _, _ => return

omit [DecidableEq S] [ToString S] in
theorem run_keep (t : Task) (outcome : Outcome t.Value) :
    (keep t outcome).run s = ((), { s with payload := keptIn s.payload t outcome }) := by
  cases t <;> cases outcome <;> rfl

/-- The computation concludes the run of a task, as the outcome tells. -/
inductive Concludes (w : Workflow S) (running : Running S) (t : Task) (outcome : Outcome t.Value) :
    Proc (Site S) Unit → Prop
  | intro {β : Type} {settle : Outcome (β × Option S)}
      {report : Except (OperationError S) β → Proc (Site S) Unit} (state : Status) (text : String)
      (tally : settle.tally = outcome.tally)
      (settles : running.settledState settle = w.outcomeState running.stages t outcome)
      (reports : report (settle.map Prod.fst).result = Site.mark (.task t) state text)
      (status : ∀ now, w.outcomeStatus now t outcome = ⟨state, text, now⟩) :
      Concludes w running t outcome do let _ ← running.conclude settle report

/-- First what was returned is kept, then the run is concluded. -/
theorem finish_eq (running : Running S) (t : Task) (outcome : Outcome t.Value) :
    ∃ conclusion, w.finish running t outcome = (do keep t outcome; conclusion) ∧
      w.Concludes running t outcome conclusion := by
  unfold finish
  cases t with
  | preflights scope =>
    cases outcome with
    | returned o =>
      refine ⟨_, rfl, ?_⟩
      cases failures : PreflightOutput.hasFailures o with
      | true =>
        refine .intro .failed (checksFailedLabel scope) rfl rfl ?_ fun now ↦ if_pos failures
        show w.describeChecks scope (.ok o.hasFailures) = _
        rw [failures]
        rfl
      | false =>
        refine .intro .succeeded (w.plan.labels (.preflights scope)).succeeded rfl rfl ?_
          fun now ↦ if_neg (by rw [failures]; nofun)
        show w.describeChecks scope (.ok o.hasFailures) = _
        rw [failures]
        rfl
    | failed | panicked => exact ⟨_, rfl, .intro _ _ rfl rfl rfl fun _ ↦ rfl⟩
  | infrastructure | airgap | deployment =>
    cases outcome with
    | returned | failed | panicked => exact ⟨_, rfl, .intro _ _ rfl rfl rfl fun _ ↦ rfl⟩

/-- A job that ends while its lock is current tells its outcome, makes the closing transition, is
counted and gives the lock back. -/
theorem run_finish {r : Running S} {t : Task} (outcome : Outcome t.Value)
    (h : s.engine.isCurrent r.lock = true) :
    (w.finish r t outcome).run s =
      ((), { s with
        engine := (s.engine.settled (w.outcomeState r.stages t outcome) s.now).freed
        counters := s.counters.record outcome.tally
        payload := w.endedIn s.now s.payload t outcome }) := by
  obtain ⟨conclusion, same, concludes⟩ := w.finish_eq r t outcome
  rw [same, Proc.run_bind, run_keep]
  cases concludes with
  | @intro _ settle report state text tally settles reports status =>
    rw [Proc.run_bind]
    show ((), ((r.conclude settle report).run
      { s with payload := keptIn s.payload t outcome }).2) = _
    rw [Running.run_conclude _ _ (w.endedIn s.now s.payload t outcome)]
    · rw [settles, tally]
    · exact h
    · rw [reports]
      unfold endedIn
      rw [status]
      rfl

end Workflow
end Rollout
