import Rollout.Proofs.Simulation
import Rollout.Proofs.Trace

/-!
# The preflight gate

A task with preflight checks is begun only right after a run of them: one that began after whatever
has been configured, and that returned.  If it reported failures, the client has asked to pass over
them and may.
-/

namespace Rollout

variable {S : Type}

/-! ### What the gate asks for -/

/-- The latest run of the checks returned this output, and since it began nothing has been
configured. -/
def ChecksReturned (scope : PreflightScope) (output : PreflightOutput) (h : List Fact) : Prop :=
  ∃ earlier ignore since,
    h = earlier ++ .began (.preflights scope) ignore (.preflights scope) ::
      .ended (.preflights scope) (.returned output) :: since ∧
    ∀ f ∈ since, f.isConfiguration = false ∧ f.calls (.preflights scope) = false

/-- After this output of the checks, a client who asks with this flag may go on. -/
def Options.MayGoOn (o : Options) (scope : PreflightScope) (ignore : Bool)
    (output : PreflightOutput) : Prop :=
  output.hasFailures = false ∨
    output.hasFailures = true ∧ ignore = true ∧ o.allowsIgnoring scope = true

/-- The collaborator of a task is called only by an action that begins this task, and only behind
the gate. -/
def Gated (o : Options) (scope : PreflightScope) (t : Task) (h : List Fact) : Prop :=
  ∀ before t' ignore call after, h = before ++ .began t' ignore call :: after → call.task = t →
    t' = t ∧ ∃ output, ChecksReturned scope output before ∧ o.MayGoOn scope ignore output

theorem Call.eq_preflights {call : Call} {scope : PreflightScope}
    (h : call.task = .preflights scope) : call = .preflights scope := by
  cases call with
  | preflights scope' => rw [Task.preflights.inj h]
  | installInfrastructure | upgradeInfrastructure | processAirgap | installApp | upgradeApp =>
    nomatch h

/-- The checks of a scope stand in the way of a task. -/
structure Plan.Gates [DecidableEq S] (p : Plan S) (o : Options) (scope : PreflightScope) (t : Task)
    (checks : Stages S) (gate : Gate S) : Prop where
  checked : p.stages o (.task (.preflights scope)) = .ok checks
  gated : p.gateOf (.task t) = some (scope, gate)
  begins : p.BeginsIn o t fun s ↦ s = checks.succeeded ∨ s = gate.bypassed

namespace Workflow

variable {w : Workflow S} {scope : PreflightScope} {checks : Stages S} {gate : Gate S}

/-! ### What the state tells of the checks -/

section Outcome

variable (gated : w.plan.gate scope = some gate)
  (nodup : (w.plan.outcomes (.task (.preflights scope)) checks).Nodup)
  {outcome : Outcome PreflightOutput}

include gated nodup

/-- The states in which checks settle differ. -/
theorem checked_distinct :
    checks.succeeded ≠ checks.failed ∧ checks.succeeded ≠ gate.closed ∧
      checks.failed ≠ gate.closed := by
  simpa [Plan.outcomes, Plan.closedBy, gated, and_assoc] using nodup

/-- Only checks that returned without a failure settle as succeeded. -/
theorem returned_of_succeeded
    (h : w.outcomeState checks (.preflights scope) outcome = checks.succeeded) :
    ∃ output, outcome = .returned output ∧ output.hasFailures = false := by
  obtain ⟨not_failed, not_closed, -⟩ := checked_distinct gated nodup
  cases outcome with
  | returned output =>
    refine ⟨output, rfl, Bool.eq_false_iff.2 fun failures ↦ not_closed ?_⟩
    rw [← h]
    show (w.settledChecks scope output).getD checks.succeeded = gate.closed
    unfold settledChecks
    rw [if_pos failures, gated]
    rfl
  | failed e | panicked p => exact absurd h.symm not_failed

/-- Only checks that returned with a failure settle there. -/
theorem returned_of_closed
    (h : w.outcomeState checks (.preflights scope) outcome = gate.closed) :
    ∃ output, outcome = .returned output ∧ output.hasFailures = true := by
  obtain ⟨-, not_succeeded, not_failed⟩ := checked_distinct gated nodup
  cases outcome with
  | returned output =>
    refine ⟨output, rfl, ?_⟩
    cases failures : output.hasFailures with
    | true => rfl
    | false =>
      refine absurd (Eq.trans ?_ h) not_succeeded
      show checks.succeeded = (w.settledChecks scope output).getD checks.succeeded
      unfold settledChecks
      rw [failures]
      rfl
  | failed e | panicked p => exact absurd h not_failed

end Outcome

variable [DecidableEq S] {t : Task} {o o' : Outline S}

/-- A task begins where its checks have succeeded, or it passes over their failures. -/
theorem Step.through_gate {ignore : Bool} {call : Call}
    (step : w.Step o (.began t ignore call) o') (sound : w.plan.Sound w.options)
    (gates : w.plan.Gates w.options scope t checks gate) :
    o.current = checks.succeeded ∨
      o.current = gate.closed ∧ ignore = true ∧ w.options.allowsIgnoring scope = true := by
  cases step with
  | @began _ _ through stages enters passes =>
    have leads := enters.leads
    cases through with
    | none =>
      rcases gates.begins _ enters.has rfl _ (TransitionTable.mem_edges leads) rfl with h | h
      · exact .inl h
      · exact absurd (h ▸ enters.rests) (sound.bypassed_not_resting _ enters.has _ gates.gated)
    | some b =>
      obtain ⟨scope', gate', gated, closed, -, wanted, permitted⟩ := bypassFrom_some passes
      obtain ⟨rfl, rfl⟩ : scope' = scope ∧ gate' = gate := by
        simpa using gated.symm.trans gates.gated
      exact .inr ⟨closed, wanted, permitted⟩

variable [ToString S]

/-- Every call of a task with checks is behind their gate: in either state in which the task can
begin, a run of the checks was last. -/
theorem gated (w : Workflow S) (sound : w.plan.Sound w.options)
    (gates : w.plan.Gates w.options scope t checks gate) (values : Option ConfigValues)
    (now : Timestamp) (events : List Event) :
    Gated w.options scope t (w.history values now events) := by
  intro before t' ignore call after eq task_eq
  have trace := w.trace sound values now events
  rw [eq] at trace
  obtain ⟨o₁, o₂, first, step, -⟩ := trace.split
  obtain rfl : t' = t := step.task_eq.symm.trans task_eq
  have has := Plan.mem_activities.2 gates.checked
  have gate_eq := Plan.gate_of_gateOf gates.gated
  have nodup := sound.outcomes_nodup _ has
  have finished (settled : o₁.current ∈ w.plan.outcomes (.task (.preflights scope)) checks) :
      ∃ outcome, o₁.current = w.outcomeState checks (.preflights scope) outcome ∧
        ∀ output, outcome = .returned output → ChecksReturned scope output before := by
    obtain ⟨earlier, flag, call', outcome, rfl, task_eq', current⟩ :=
      first.finished sound rfl rfl has settled
    refine ⟨outcome, current, ?_⟩
    rintro output rfl
    obtain rfl : call' = .preflights scope := Call.eq_preflights task_eq'
    exact ⟨earlier, flag, [], rfl, fun f f_mem ↦ absurd f_mem List.not_mem_nil⟩
  refine ⟨rfl, ?_⟩
  rcases step.through_gate sound gates with succeeded | ⟨closed, wanted, permitted⟩
  · obtain ⟨outcome, current, returned⟩ := finished (succeeded ▸ Plan.succeeded_mem_outcomes)
    obtain ⟨output, rfl, none_failed⟩ :=
      returned_of_succeeded gate_eq nodup (current.symm.trans succeeded)
    exact ⟨output, returned output rfl, .inl none_failed⟩
  · obtain ⟨outcome, current, returned⟩ := finished (closed ▸ Plan.closed_mem_outcomes gate_eq)
    obtain ⟨output, rfl, some_failed⟩ :=
      returned_of_closed gate_eq nodup (current.symm.trans closed)
    exact ⟨output, returned output rfl, .inr ⟨some_failed, wanted, permitted⟩⟩

end Workflow

/-! ### The gates of both workflows -/

/-- On Linux the infrastructure is behind the gate of the host checks. -/
theorem InstallState.host_gates (o : Options) (linux : o.target = .linux) :
    InstallState.plan.Gates o .host .infrastructure
      ⟨.hostPreflightsRunning, .hostPreflightsSucceeded, .hostPreflightsExecutionFailed⟩
      (InstallState.gate .host) := by
  obtain ⟨target, ⟨⟩, ⟨⟩, ⟨⟩⟩ := o
  all_goals
    obtain rfl : target = .linux := linux
    exact ⟨rfl, rfl, by decide⟩

/-- The deployment of an installation is behind the gate of the checks of the application. -/
theorem InstallState.app_gates (o : Options) :
    InstallState.plan.Gates o .app .deployment
      ⟨.appPreflightsRunning, .appPreflightsSucceeded, .appPreflightsExecutionFailed⟩
      (InstallState.gate .app) := by
  obtain ⟨⟨⟩, ⟨⟩, ⟨⟩, ⟨⟩⟩ := o
  all_goals exact ⟨rfl, rfl, by decide⟩

theorem UpgradeState.app_gates (o : Options) :
    UpgradeState.plan.Gates o .app .deployment
      ⟨.appPreflightsRunning, .appPreflightsSucceeded, .appPreflightsExecutionFailed⟩
      ⟨.appPreflightsFailed, .appPreflightsFailedBypassed⟩ := by
  obtain ⟨⟨⟩, ⟨⟩, ⟨⟩, ⟨⟩⟩ := o
  all_goals exact ⟨rfl, rfl, by decide⟩

/-- In every run, the infrastructure of Linux hosts is installed only behind the gate of the host
preflights, and the application is installed or upgraded only behind that of its own. -/
theorem preflight_gate (options : Options) (schema : AppConfigSchema)
    (titles : PreflightScope → List String) (values : Option ConfigValues) (now : Timestamp)
    (events : List Event) :
    (options.target = .linux →
        Gated options .host .infrastructure
          ((Workflow.install options schema titles).history values now events)) ∧
      Gated options .app .deployment
        ((Workflow.install options schema titles).history values now events) ∧
      Gated options .app .deployment
        ((Workflow.upgrade options schema titles).history values now events) := by
  let install := Workflow.install options schema titles
  let upgrade := Workflow.upgrade options schema titles
  have installs : install.plan.Sound options := InstallState.plan_sound options
  have upgrades : upgrade.plan.Sound options := UpgradeState.plan_sound options
  refine ⟨fun linux ↦ ?_, ?_, ?_⟩
  · exact install.gated installs (InstallState.host_gates options linux) values now events
  · exact install.gated installs (InstallState.app_gates options) values now events
  · exact upgrade.gated upgrades (UpgradeState.app_gates options) values now events

/-- Checks that report a failure, and what is returned by others. -/
def failingChecks : (c : Call) → Outcome c.task.Value
  | .preflights _ => .returned ({ fail := [{ title := "disk" }] } : PreflightOutput)
  | .installInfrastructure _ | .upgradeInfrastructure | .processAirgap => .returned ()
  | .installApp _ | .upgradeApp _ => .returned ({} : AppRelease)

/-- A client installs the infrastructure over failed host preflights, at the second attempt. -/
def passingOver : List Event :=
  [.act (.patchValues .empty), .act (.configureInstallation {}),
    .act (.begin (.preflights .host) false), .complete failingChecks,
    .act (.begin .infrastructure false), .act (.begin .infrastructure true)]

/-- What happens in this run before the infrastructure is installed. -/
def beforePassingOver : List Fact :=
  [.patched .empty true, .configured {} true, .began (.preflights .host) false (.preflights .host),
    .ended (.preflights .host) (failingChecks (.preflights .host))]

/-- In this run the infrastructure is installed, with the failed checks right before it. -/
theorem infrastructure_over_failed_checks :
    (Workflow.install { allowIgnoreHost := true } {} fun _ ↦ []).history none Timestamp.epoch
        passingOver =
      beforePassingOver ++ .began .infrastructure true (.installInfrastructure {}) :: [] ∧
    ∃ output, ChecksReturned .host output beforePassingOver ∧
      Options.MayGoOn { allowIgnoreHost := true } .host true output := by
  have history :
      (Workflow.install { allowIgnoreHost := true } {} fun _ ↦ []).history none Timestamp.epoch
        passingOver =
      beforePassingOver ++ .began .infrastructure true (.installInfrastructure {}) :: [] := rfl
  obtain ⟨host, -, -⟩ :=
    preflight_gate { allowIgnoreHost := true } {} (fun _ ↦ []) none Timestamp.epoch passingOver
  obtain ⟨-, behind⟩ := host rfl _ _ _ _ _ history rfl
  exact ⟨history, behind⟩

end Rollout
