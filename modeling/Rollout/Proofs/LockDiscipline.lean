import Rollout.Proofs.Simulation
import Rollout.Proofs.Trace

/-!
# Lock discipline

Between two events the lock of a workflow is out if and only if the workflow is in a state of
progress, and if and only if a job is in flight: one, which holds the lock and is in its own running
state.  Whatever has started settles along an edge of the table, so that no workflow is left in the
middle of something with its lock free.
-/

namespace Rollout

variable {S : Type}

/-! ### States of progress -/

/-- The states in which an installation does something. -/
def InstallState.inProgress : List InstallState :=
  [.applicationConfiguring, .installationConfiguring, .hostPreflightsRunning,
    .infrastructureInstalling, .airgapProcessing, .appPreflightsRunning, .appInstalling]

/-- The states in which an installation passes over failed checks. -/
def InstallState.bypassing : List InstallState :=
  [.hostPreflightsFailedBypassed, .appPreflightsFailedBypassed]

/-- The states in which an upgrade does something. -/
def UpgradeState.inProgress : List UpgradeState :=
  [.applicationConfiguring, .airgapProcessing, .infrastructureUpgrading, .appPreflightsRunning,
    .appUpgrading]

/-- The states in which an upgrade passes over failed checks. -/
def UpgradeState.bypassing : List UpgradeState := [.appPreflightsFailedBypassed]

/-- The states of progress are the running states, and no others are entered in between. -/
structure Plan.Divides (p : Plan S) (o : Options) (inProgress bypassing : List S) : Prop where
  running : ∀ x ∈ p.activities o, x.2.running ∈ inProgress ∧ x.2.running ∉ bypassing
  resting : ∀ s ∈ p.resting o, s ∉ inProgress ∧ s ∉ bypassing

/-- The states of an installation are told apart by whether something is in progress. -/
theorem InstallState.plan_divides (o : Options) :
    InstallState.plan.Divides o InstallState.inProgress InstallState.bypassing := by
  obtain ⟨⟨⟩, ⟨⟩, ⟨⟩, ⟨⟩⟩ := o
  all_goals exact ⟨by decide, by decide⟩

theorem UpgradeState.plan_divides (o : Options) :
    UpgradeState.plan.Divides o UpgradeState.inProgress UpgradeState.bypassing := by
  obtain ⟨⟨⟩, ⟨⟩, ⟨⟩, ⟨⟩⟩ := o
  all_goals exact ⟨by decide, by decide⟩

/-! ### Discipline -/

namespace Session

/-- Whatever has started and comes to an end with an event settles along an edge of the table. -/
def Settles [DecidableEq S] [ToString S] (w : Workflow S) (s : Session S) : Prop :=
  ∀ e f, s.fact w e = some f → f.isCall = false →
    ∃ stages, w.plan.stages w.options f.activity = .ok stages ∧
      w.table.allows stages.running (w.stateAfter stages f) = true ∧
      (s.next w e).2.site.engine.current = w.stateAfter stages f ∧
      (s.next w e).2.site.engine.last =
        some ⟨stages.running, w.stateAfter stages f, s.site.now⟩

/-- What holds of a session between two events. -/
structure Disciplined [DecidableEq S] [ToString S] (w : Workflow S)
    (inProgress bypassing : List S) (s : Session S) (h : List Fact) : Prop where
  /-- The lock is out exactly in the states of progress. -/
  locked_iff_inProgress :
    s.site.engine.isLocked = true ↔ s.site.engine.current ∈ inProgress
  /-- The lock is out exactly as long as a job is in flight. -/
  locked_iff_job : s.site.engine.isLocked = true ↔ s.job.isSome = true
  /-- One call at most has not ended yet. -/
  calls_eq_ends :
    h.countP Fact.isCall = h.countP Fact.isEnd + if s.site.engine.isLocked then 1 else 0
  /-- The job in flight holds the lock, and is in its own running state. -/
  running : ∀ job, s.job = some job → s.site.engine.isCurrent job.running.lock = true ∧
    s.site.engine.current = job.running.stages.running ∧
    w.plan.stages w.options (.task job.call.task) = .ok job.running.stages
  /-- Nobody stops on the way over failed checks. -/
  not_bypassing : s.site.engine.current ∉ bypassing
  settles : s.Settles w

variable {w : Workflow S} {s : Session S}

/-- The lock is out exactly while a job is in flight. -/
theorem Consistent.locked_iff_job (consistent : s.Consistent w) :
    s.site.engine.isLocked = true ↔ s.job.isSome = true := by
  unfold Engine.isLocked
  cases found : s.job with
  | none =>
    rw [(consistent.idle found).1]
    rfl
  | some job =>
    have held := Engine.held_ne_none (consistent.busy job found).1
    rw [Option.isSome_iff_ne_none]
    exact ⟨fun _ ↦ rfl, fun _ ↦ held⟩

/-- Where the workflow is, is where its job is or where it waits. -/
theorem Consistent.locked_iff_inProgress {inProgress bypassing : List S}
    (consistent : s.Consistent w) (divides : w.plan.Divides w.options inProgress bypassing) :
    s.site.engine.isLocked = true ↔ s.site.engine.current ∈ inProgress := by
  rw [consistent.locked_iff_job]
  cases found : s.job with
  | none =>
    have waits := divides.resting _ (consistent.idle found).2
    exact ⟨nofun, fun runs ↦ absurd runs waits.1⟩
  | some job =>
    obtain ⟨-, current, has⟩ := consistent.busy job found
    have runs := divides.running _ has
    exact ⟨fun _ ↦ current ▸ runs.1, fun _ ↦ rfl⟩

/-- A workflow never rests in a state of passing over failed checks. -/
theorem Consistent.not_bypassing {inProgress bypassing : List S} (consistent : s.Consistent w)
    (divides : w.plan.Divides w.options inProgress bypassing) :
    s.site.engine.current ∉ bypassing := by
  cases found : s.job with
  | none => exact (divides.resting _ (consistent.idle found).2).2
  | some job =>
    obtain ⟨-, current, has⟩ := consistent.busy job found
    exact current ▸ (divides.running _ has).2

variable [DecidableEq S] [ToString S]

/-- A job in flight settles along edges of the table, whatever its outcome. -/
theorem Consistent.settles (sound : w.plan.Sound w.options) (consistent : s.Consistent w) :
    s.Settles w := by
  intro e f comes ends
  obtain ⟨-, follows⟩ := next_follows sound consistent e
  rw [comes] at follows
  obtain ⟨step, settled⟩ := follows
  obtain ⟨stages, has, last⟩ := settled ends
  obtain ⟨stages', has', current, -⟩ := step.begins
  obtain rfl : stages' = stages := Plan.stages_unique has' has
  refine ⟨stages', Plan.mem_activities.1 has, ?_, current, last⟩
  exact sound.settles _ has _ (Workflow.stateAfter_mem ends)

/-- Every session is disciplined whose workflow keeps its states of progress apart. -/
theorem disciplined {inProgress bypassing : List S} (sound : w.plan.Sound w.options)
    (divides : w.plan.Divides w.options inProgress bypassing) (values : Option ConfigValues)
    (now : Timestamp) (events : List Event) :
    Disciplined w inProgress bypassing (w.after values now events)
      (w.history values now events) := by
  obtain ⟨consistent, trace⟩ := trace_history sound (start_consistent w values now) events
  refine
    { locked_iff_inProgress := consistent.locked_iff_inProgress divides
      locked_iff_job := consistent.locked_iff_job
      calls_eq_ends := ?_
      running := ?_
      not_bypassing := consistent.not_bypassing divides
      settles := consistent.settles sound }
  · refine (trace.calls_eq_ends rfl).trans (congrArg _ ?_)
    have locked := consistent.locked_iff_job
    show (((Session.start w values now).after w events).job.map (·.call)).toList.length = _
    cases found : ((Session.start w values now).after w events).job with
    | none =>
      rw [found] at locked
      exact (if_neg fun out ↦ nomatch locked.1 out).symm
    | some job =>
      rw [found] at locked
      exact (if_pos (locked.2 rfl)).symm
  · intro job found
    obtain ⟨holds, current, has⟩ := consistent.busy job found
    exact ⟨holds, current, Plan.mem_activities.1 has⟩

end Session

/-- In every run of an installation or an upgrade the lock, the state and the job in flight tell the
same story, and whatever has started can settle. -/
theorem lock_discipline (options : Options) (schema : AppConfigSchema)
    (titles : PreflightScope → List String) (values : Option ConfigValues) (now : Timestamp)
    (events : List Event) :
    Session.Disciplined (.install options schema titles)
        InstallState.inProgress InstallState.bypassing
        ((Workflow.install options schema titles).after values now events)
        ((Workflow.install options schema titles).history values now events) ∧
      Session.Disciplined (.upgrade options schema titles)
        UpgradeState.inProgress UpgradeState.bypassing
        ((Workflow.upgrade options schema titles).after values now events)
        ((Workflow.upgrade options schema titles).history values now events) := by
  constructor
  · exact Session.disciplined (InstallState.plan_sound options)
      (InstallState.plan_divides options) ..
  · exact Session.disciplined (UpgradeState.plan_sound options)
      (UpgradeState.plan_divides options) ..

end Rollout
