import Rollout.Proofs.Action

/-!
# What an action can do

`Workflow.Acted` says once what can come of an action: its answer, the job that it leaves behind,
and what becomes of the stores and the engine.  Everything that holds of all runs is derived from
its six cases.  They do not mention the order of the steps, the counters apart.
-/

namespace Rollout

variable {S : Type}

/-- An action was not even begun: the lock was out, the table or a gate forbade it, or the workflow
does not have it. -/
def ActionError.isRefusal : ActionError S → Bool
  | .operation (.engine _) | .bypassNotAllowed _ | .unsupported .. => true
  | .operation _ => false

/-- A refusal leaves everything as it was, up to the count of locks and of rejected operations. -/
def Shared.Untouched (s : Site S) (e : ActionError S) (s' : Site S) : Prop :=
  ∃ generation, s' =
    { s with
      engine := { s.engine with nextGeneration := generation }
      counters := if e.isConflict then s.counters.record .rejected else s.counters }

namespace Workflow

def table (w : Workflow S) : TransitionTable S := w.plan.table w.options.target w.options.airgap

variable [DecidableEq S]

/-- Nobody gets stuck on the way into a running state: an activity is refused and leaves no trace,
or it starts. -/
theorem enter_cases {w : Workflow S} {s : Site S} (sound : w.plan.Sound w.options)
    (table : s.engine.table = w.table)
    (rest : s.engine.held = none → s.engine.current ∈ w.plan.resting w.options) {a : Activity}
    {stages : Stages S} {through : Option S} (has : (a, stages) ∈ w.plan.activities w.options)
    (passes : s.engine.held = none → through ≠ none →
      s.engine.table.Leads s.engine.current through stages.running) :
    (∃ e s', e.isRefusal = true ∧ e ≠ .operation (.engine .invalidLock) ∧ s.Untouched e s' ∧
      (enter stages through).on s = (.error e, s')) ∨
    (s.engine.held = none ∧ s.engine.table.Leads s.engine.current through stages.running) := by
  by_cases free : s.engine.held = none
  case neg =>
    exact .inl ⟨_, _, rfl, by nofun, ⟨s.engine.nextGeneration, rfl⟩, on_enter_busy _ _ free⟩
  case pos =>
    by_cases leads : s.engine.table.Leads s.engine.current through stages.running
    case pos => exact .inr ⟨free, leads⟩
    case neg =>
      obtain rfl : through = none := Classical.byContradiction fun h ↦ leads (passes free h)
      have cannot : s.engine.canTransition stages.running = false := Bool.eq_false_iff.2 leads
      have stays : s.engine.canTransition stages.failed = false := by
        unfold Engine.canTransition
        rw [table]
        exact sound.stays has (rest free) Plan.failed_mem_outcomes
      refine .inl ⟨_, _, rfl, by nofun, ⟨s.engine.nextGeneration + 1, ?_⟩,
        on_enter_refused free cannot stays⟩
      rw [Engine.freed_taken free]
      rfl

variable [ToString S]

/-- What an action can do: its answer, the job that it leaves behind, and what becomes of the
site. -/
inductive Acted (w : Workflow S) (s : Site S) :
    Action → Answer S × Option (Job S) → Site S → Prop where
  | refused (a : Action) {e : ActionError S} (refusal : e.isRefusal = true)
      (valid : e ≠ .operation (.engine .invalidLock)) {s' : Site S}
      (untouched : s.Untouched e s') : Acted w s a (.refused e, none) s'
  | patched {patch : ConfigValues} {stages : Stages S}
      (has : (.configureApp, stages) ∈ w.plan.activities w.options) (free : s.engine.held = none)
      (can : s.engine.canTransition stages.running = true)
      (accepted : w.schema.validate (AppConfigSchema.merge s.payload.values patch) = .ok ()) :
      Acted w s (.patchValues patch)
        (.values (w.schema.resolve (AppConfigSchema.merge s.payload.values patch)), none)
        { s with
          engine := s.engine.passed stages.running stages.succeeded s.now
          counters := (s.counters.record .started).record .succeeded
          payload := { s.payload with config :=
            { status := ⟨.succeeded, "Application configuration applied", s.now⟩
              result := some (AppConfigSchema.merge s.payload.values patch) } } }
  | patchRejected {patch : ConfigValues} {stages : Stages S} {e : ValidationError}
      (has : (.configureApp, stages) ∈ w.plan.activities w.options) (free : s.engine.held = none)
      (can : s.engine.canTransition stages.running = true)
      (rejected : w.schema.validate (AppConfigSchema.merge s.payload.values patch) = .error e) :
      Acted w s (.patchValues patch) (.refused (.operation (rejection e)), none)
        { s with
          engine := s.engine.passed stages.running stages.failed s.now
          counters := (s.counters.record .started).record .failed
          payload := { s.payload with config.status :=
            ⟨.failed, (rejection e : OperationError S).message, s.now⟩ } }
  | configured {settings : InstallationConfig} {stages : Stages S}
      (has : (.configureInstallation, stages) ∈ w.plan.activities w.options)
      (free : s.engine.held = none) (can : s.engine.canTransition stages.running = true)
      (accepted : settings.validate = .ok ()) :
      Acted w s (.configureInstallation settings) (.settings settings, none)
        { s with
          engine := s.engine.passed stages.running stages.succeeded s.now
          counters := (s.counters.record .started).record .succeeded
          payload := { s.payload with installation :=
            { status := ⟨.succeeded, "Installation configured", s.now⟩
              result := some settings } } }
  | configurationRejected {settings : InstallationConfig} {stages : Stages S} {e : ValidationError}
      (has : (.configureInstallation, stages) ∈ w.plan.activities w.options)
      (free : s.engine.held = none) (can : s.engine.canTransition stages.running = true)
      (rejected : settings.validate = .error e) :
      Acted w s (.configureInstallation settings) (.refused (.operation (rejection e)), none)
        { s with
          engine := s.engine.passed stages.running stages.failed s.now
          counters := (s.counters.record .started).record .failed
          payload := { s.payload with installation.status :=
            ⟨.failed, (rejection e : OperationError S).message, s.now⟩ } }
  | began {t : Task} {ignore : Bool} {through : Option S} {stages : Stages S}
      (has : (.task t, stages) ∈ w.plan.activities w.options) (free : s.engine.held = none)
      (passes : w.bypassFrom ignore t s.engine.current = .ok through)
      (leads : s.engine.table.Leads s.engine.current through stages.running) :
      Acted w s (.begin t ignore)
        (.accepted (w.acceptedStatus t s.now), some
          ⟨⟨s.engine.nextLock, stages⟩, w.callFor s.payload.values s.payload.settings t⟩)
        { s with
          engine := movedVia s.engine.taken through stages.running s.now
          counters := s.counters.record .started
          payload := w.begunIn (w.acceptedStatus t s.now) s.payload t }

section Cases

variable {w : Workflow S} {s : Site S} (sound : w.plan.Sound w.options)
  (table : s.engine.table = w.table)
  (rest : s.engine.held = none → s.engine.current ∈ w.plan.resting w.options)

include sound table rest

/-- An activity that a client waits for is refused, or it is carried through. -/
theorem settleNow_cases {α : Type} {a : Activity} {running succeeded : String}
    {work : Proc (Site S) (Outcome (α × Option S))} {attempt : Attempt S α}
    (is : attempt = w.settleNow a running succeeded work) :
    (∃ e s', e.isRefusal = true ∧ e ≠ .operation (.engine .invalidLock) ∧ s.Untouched e s' ∧
      attempt.on s = (.error e, s')) ∨
    (∃ stages, (a, stages) ∈ w.plan.activities w.options ∧ s.engine.held = none ∧
      s.engine.canTransition stages.running = true) := by
  subst is
  cases found : w.plan.stages w.options a with
  | error what =>
    refine .inl ⟨.unsupported what w.plan.mode w.options.target, s, rfl, by nofun, ?_, ?_⟩
    · exact ⟨s.engine.nextGeneration, rfl⟩
    · exact Attempt.on_bind_error (on_stages_error found)
  | ok stages =>
    have has := Plan.mem_activities.2 found
    rcases enter_cases sound table rest has (fun _ h ↦ absurd rfl h) with
      ⟨e, s', refusal, valid, untouched, h⟩ | ⟨free, leads⟩
    · refine .inl ⟨e, s', refusal, valid, untouched, ?_⟩
      unfold settleNow
      rw [Attempt.on_bind_ok (on_stages_ok found), Attempt.on_bind_error h]
    · exact .inr ⟨stages, has, free, leads⟩

theorem act_patchValues_cases (patch : ConfigValues) :
    w.Acted s (.patchValues patch) ((w.act (.patchValues patch)).run s).1
      ((w.act (.patchValues patch)).run s).2 := by
  unfold act
  rw [run_answer]
  rcases settleNow_cases sound table rest (rfl : w.patchValues patch = _) with
    ⟨e, s', refusal, valid, untouched, h⟩ | ⟨stages, has, free, can⟩
  · rw [h]
    exact .refused _ refusal valid untouched
  · have supported := Plan.mem_activities.1 has
    cases accepted : w.schema.validate (AppConfigSchema.merge s.payload.values patch) with
    | ok u =>
      rw [on_patchValues_accepted supported free can accepted]
      exact .patched has free can accepted
    | error e =>
      rw [on_patchValues_rejected supported free can accepted]
      exact .patchRejected has free can accepted

theorem act_configureInstallation_cases (settings : InstallationConfig) :
    w.Acted s (.configureInstallation settings) ((w.act (.configureInstallation settings)).run s).1
      ((w.act (.configureInstallation settings)).run s).2 := by
  unfold act
  rw [run_answer]
  rcases settleNow_cases sound table rest (rfl : w.configureInstallation settings = _) with
    ⟨e, s', refusal, valid, untouched, h⟩ | ⟨stages, has, free, can⟩
  · rw [h]
    exact .refused _ refusal valid untouched
  · have supported := Plan.mem_activities.1 has
    cases accepted : settings.validate with
    | ok u =>
      rw [on_configureInstallation_accepted supported free can accepted]
      exact .configured has free can accepted
    | error e =>
      rw [on_configureInstallation_rejected supported free can accepted]
      exact .configurationRejected has free can accepted

theorem act_begin_cases (t : Task) (ignore : Bool) :
    w.Acted s (.begin t ignore) ((w.act (.begin t ignore)).run s).1
      ((w.act (.begin t ignore)).run s).2 := by
  unfold act
  rw [run_answer]
  cases found : w.plan.stages w.options (.task t) with
  | error what =>
    rw [show (w.begin t ignore).on s = _ from Attempt.on_bind_error (on_stages_error found)]
    exact .refused _ rfl (by nofun) ⟨s.engine.nextGeneration, rfl⟩
  | ok stages =>
    have has := Plan.mem_activities.2 found
    cases passed : w.bypassFrom ignore t s.engine.current with
    | error e =>
      obtain ⟨scope, rfl⟩ := bypassFrom_error passed
      have h : (w.begin t ignore).on s = (.error (.bypassNotAllowed scope), s) := by
        unfold Workflow.begin
        rw [Attempt.on_bind_ok (on_stages_ok found), Attempt.on_bind_error
          ((on_bypass ignore t).trans (congrArg (·, s) passed))]
      rw [h]
      exact .refused _ rfl (by nofun) ⟨s.engine.nextGeneration, rfl⟩
    | ok through =>
      have passes : s.engine.held = none → through ≠ none →
          s.engine.table.Leads s.engine.current through stages.running := by
        intro free some_through
        obtain ⟨b, rfl⟩ := Option.ne_none_iff_exists'.1 some_through
        obtain ⟨scope, gate, gated, closed, rfl, -, -⟩ := bypassFrom_some passed
        rw [table, closed]
        exact sound.passes _ has _ gated (closed ▸ rest free)
      rcases enter_cases sound table rest has passes with
        ⟨e, s', refusal, valid, untouched, h⟩ | ⟨free, leads⟩
      · have : (w.begin t ignore).on s = (.error e, s') := by
          unfold Workflow.begin
          rw [Attempt.on_bind_ok (on_stages_ok found), Attempt.on_bind_ok
            ((on_bypass ignore t).trans (congrArg (·, s) passed)), Attempt.on_bind_error h]
        rw [this]
        exact .refused _ refusal valid untouched
      · rw [on_begin_ok found passed free leads]
        exact .began has free passed leads

/-- What can become of an action: the cases of `Acted` are all that there are. -/
theorem act_cases (a : Action) : w.Acted s a ((w.act a).run s).1 ((w.act a).run s).2 := by
  cases a with
  | patchValues patch => exact act_patchValues_cases sound table rest patch
  | configureInstallation settings =>
    exact act_configureInstallation_cases sound table rest settings
  | begin t ignore => exact act_begin_cases sound table rest t ignore

end Cases
end Workflow
end Rollout
