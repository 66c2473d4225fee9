import Rollout.Workflow.Error
import Rollout.Workflow.Stores

/-!
# The actions of a workflow

Clients act on a workflow.  An action that the workflow does not have, or that comes at the wrong
time, is refused and leaves no trace.  Configuration is done while the client waits.  A task is
accepted when the workflow has entered its running state, and leaves a job behind: the call that a
collaborator has to carry out.  `Workflow.finish` takes what came of it.

The titles of checks are asked of a collaborator before the checks run.  They are given here
(`Workflow.titles`): a collaborator that panics when it is asked for them is left out.
-/

namespace Rollout

/-- A workflow of one mode. -/
structure Workflow (S : Type) where
  plan : Plan S
  options : Options
  schema : AppConfigSchema
  /-- The titles of the checks of a scope, known before the checks run. -/
  titles : PreflightScope → List String

/-- What a collaborator is asked to do. -/
inductive Call where
  | preflights (scope : PreflightScope)
  | installInfrastructure (settings : InstallationConfig)
  | upgradeInfrastructure
  | processAirgap
  | installApp (values : ConfigValues)
  | upgradeApp (values : ConfigValues)

namespace Call

def task : Call → Task
  | preflights scope => .preflights scope
  | installInfrastructure _ | upgradeInfrastructure => .infrastructure
  | processAirgap => .airgap
  | installApp _ | upgradeApp _ => .deployment

end Call

/-- What the collaborator of a task returns. -/
def Task.Value : Task → Type
  | preflights _ => PreflightOutput
  | infrastructure | airgap => Unit
  | deployment => AppRelease

/-- What a collaborator reports while it works. -/
inductive Progress where
  | line (text : String)
  | components (names : List String)
  | component (name : String) (state : Status) (text : String)
  deriving DecidableEq, Repr

/-- A task that has been accepted and whose call is to be carried out. -/
structure Job (S : Type) where
  running : Running S
  call : Call

/-- What a client asks of a workflow.  The flag asks to pass over failed checks. -/
inductive Action where
  | patchValues (patch : ConfigValues)
  | configureInstallation (settings : InstallationConfig)
  | begin (t : Task) (ignore : Bool)

/-- What a workflow answers to an action. -/
inductive Answer (S : Type) where
  | values (v : ConfigValues)
  | settings (c : InstallationConfig)
  | accepted (r : StatusRecord)
  | refused (e : ActionError S)

/-- The answer to an accepted task. -/
structure Accepted (S : Type) where
  status : StatusRecord
  job : Job S

/-- An action that may be refused. -/
abbrev Attempt (S : Type) := ExceptT (ActionError S) (Proc (Site S))

def Attempt.ofOperation {S α : Type} (p : Proc (Site S) (Except (OperationError S) α)) :
    Attempt S α :=
  ExceptT.mk do return (← p).mapError .operation

namespace Workflow

variable {S : Type} [DecidableEq S]

def start (w : Workflow S) (values : Option ConfigValues) (now : Timestamp) : Site S where
  engine := .start 0 (w.plan.table w.options.target w.options.airgap) w.plan.initial
  now := now
  payload := { config.result := values }

/-- The values of the application, the defaults filled in. -/
def values (w : Workflow S) : Proc (Site S) ConfigValues :=
  Site.look fun s ↦ w.schema.resolve s.values

/-! ### Acceptance -/

/-- The state through which a task passes over failed checks.  It is refused if there are any and
the client did not ask for that, or may not. -/
def bypass (w : Workflow S) (ignore : Bool) (t : Task) : Attempt S (Option S) :=
  match t.gatedBy?.bind fun scope ↦ (w.plan.gate scope).map (scope, ·) with
  | none => return none
  | some (scope, gate) => do
    let current ← (Proc.read (·.engine.current) : Proc (Site S) S)
    if current ≠ gate.closed then return none
    else if ignore && w.options.allowsIgnoring scope then return some gate.bypassed
    else throw (.bypassNotAllowed scope)

/-- Take the lock, pass over failed checks if need be, and enter the running state. -/
def enter (stages : Stages S) (through : Option S) : Attempt S (Running S) := do
  let g ← Attempt.ofOperation (Guarded.acquire stages)
  if let some s := through then
    if let .error e ← (g.transition s : Proc (Site S) (Except (OperationError S) Unit)) then
      (g.drop : Proc (Site S) Unit)
      throw (.operation e)
  Attempt.ofOperation g.start

/-- The states of an activity, if the workflow has it. -/
def stages (w : Workflow S) (a : Activity) : Attempt S (Stages S) :=
  match w.plan.stages w.options a with
  | .ok stages => return stages
  | .error what => throw (.unsupported what w.plan.mode w.options.target)

/-! ### Configuration -/

variable [ToString S]

/-- Do an activity while the client waits.  Its status is written when the workflow has settled
again. -/
def settleNow {α : Type} (w : Workflow S) (a : Activity) (running succeeded : String)
    (work : Proc (Site S) (Outcome (α × Option S))) : Attempt S α := do
  let operation ← enter (← w.stages a) none
  .ofOperation do
    Site.mark a .running running
    let result ← operation.run work fun _ ↦ pure ()
    match result with
    | .ok _ => Site.mark a .succeeded succeeded
    | .error e => Site.mark a .failed e.message
    return result

/-- Merge a patch into the stored values, unless the result is rejected. -/
def mergePatch (w : Workflow S) (patch : ConfigValues) :
    Proc (Site S) (Outcome (ConfigValues × Option S)) := do
  let merged := AppConfigSchema.merge (← Site.look Stores.values) patch
  match w.schema.validate merged with
  | .error e => return .failed (.validation e)
  | .ok () =>
    Site.write fun s ↦ { s with config.result := some merged }
    return .returned (← w.values, none)

/-- Change the values of the application.  The answer has the defaults filled in. -/
def patchValues (w : Workflow S) (patch : ConfigValues) : Attempt S ConfigValues :=
  w.settleNow .configureApp "Applying application configuration"
    "Application configuration applied" (w.mergePatch patch)

def storeSettings (settings : InstallationConfig) :
    Proc (Site S) (Outcome (InstallationConfig × Option S)) :=
  match settings.validate with
  | .error e => return .failed (.validation e)
  | .ok () => do
    Site.write fun s ↦ { s with installation.result := some settings }
    return .returned (settings, none)

def configureInstallation (w : Workflow S) (settings : InstallationConfig) :
    Attempt S InstallationConfig :=
  w.settleNow .configureInstallation "Configuring installation" "Installation configured"
    (storeSettings settings)

/-! ### Tasks -/

def prepare (w : Workflow S) (t : Task) : Proc (Site S) Call := do
  Site.clear t
  match t with
  | .preflights scope =>
    Site.write fun s ↦ s.modifyPreflights (fun p ↦ { p with titles := w.titles scope }) scope
    return .preflights scope
  | .infrastructure =>
    match w.plan.mode with
    | .install => return .installInfrastructure (← Site.look Stores.settings)
    | .upgrade => return .upgradeInfrastructure
  | .airgap => return .processAirgap
  | .deployment =>
    let values ← w.values
    match w.plan.mode with
    | .install => return .installApp values
    | .upgrade => return .upgradeApp values

/-- Begin a task in its running state, up to the answer to the client. -/
def launch (w : Workflow S) (t : Task) (running : Running S) : Proc (Site S) (Accepted S) := do
  let call ← w.prepare t
  Site.mark (.task t) .running (w.plan.labels t).running
  let status ← Site.look fun s ↦ s.status (.task t)
  return ⟨status, ⟨running, call⟩⟩

def begin (w : Workflow S) (t : Task) (ignore : Bool) : Attempt S (Accepted S) := do
  let stages ← w.stages (.task t)
  let running ← enter stages (← w.bypass ignore t)
  w.launch t running

def answer {α : Type} (attempt : Attempt S α) (f : α → Answer S × Option (Job S)) :
    Proc (Site S) (Answer S × Option (Job S)) := do
  match ← attempt.run with
  | .ok a => return f a
  | .error e => return (.refused e, none)

/-- Carry out an action: the answer, and the job of a task that was accepted. -/
def act (w : Workflow S) : Action → Proc (Site S) (Answer S × Option (Job S))
  | .patchValues patch => answer (w.patchValues patch) fun v ↦ (.values v, none)
  | .configureInstallation settings =>
    answer (w.configureInstallation settings) fun c ↦ (.settings c, none)
  | .begin t ignore => answer (w.begin t ignore) fun a ↦ (.accepted a.status, some a.job)

/-- Take a report of the collaborator of a task.  Only the infrastructure has components. -/
def note (t : Task) (p : Progress) : Proc (Site S) Unit :=
  match t, p with
  | t, .line text => Site.write fun s ↦ s.modifyLog (·.add text) t
  | .infrastructure, .components names =>
    .modify fun s ↦ { s with payload.infra := s.payload.infra.register names s.now }
  | .infrastructure, .component name state text =>
    .modify fun s ↦
      { s with payload.infra := s.payload.infra.updateComponent name ⟨state, text, s.now⟩ }
  | _, _ => return ()

def describe (w : Workflow S) (t : Task) : Except (OperationError S) Unit → Proc (Site S) Unit
  | .ok () => Site.mark (.task t) .succeeded (w.plan.labels t).succeeded
  | .error e => Site.mark (.task t) .failed ((w.plan.labels t).failed ++ ": " ++ e.message)

/-- Describe how checks came out; the flag tells that some of them failed. -/
def describeChecks (w : Workflow S) (scope : PreflightScope) :
    Except (OperationError S) Bool → Proc (Site S) Unit
  | .ok true => Site.mark (.task (.preflights scope)) .failed (checksFailedLabel scope)
  | .ok false => w.describe (.preflights scope) (.ok ())
  | .error e => w.describe (.preflights scope) (.error e)

/-- The state to settle in after checks, when it is not that of their success. -/
def settledChecks (w : Workflow S) (scope : PreflightScope) (o : PreflightOutput) : Option S :=
  if o.hasFailures then (w.plan.gate scope).map (·.closed) else none

/-- The call of a task has been carried out: keep what it returned, describe the outcome, and
settle. -/
def finish (w : Workflow S) (running : Running S) :
    (t : Task) → Outcome t.Value → Proc (Site S) Unit
  | .preflights scope, (outcome : Outcome PreflightOutput) => do
    if let .returned o := outcome then
      Site.write fun s ↦ s.modifyPreflights (fun p ↦ { p with output := some o }) scope
    let _ ← running.conclude
      (outcome.map fun o ↦ (o.hasFailures, w.settledChecks scope o)) (w.describeChecks scope)
  | .infrastructure, outcome => do
    let _ ← running.conclude (outcome.map fun _ ↦ ((), none)) (w.describe .infrastructure)
  | .airgap, outcome => do
    let _ ← running.conclude (outcome.map fun _ ↦ ((), none)) (w.describe .airgap)
  | .deployment, (outcome : Outcome AppRelease) => do
    if let .returned r := outcome then Site.write fun s ↦ { s with app.release := some r }
    let _ ← running.conclude (outcome.map fun _ ↦ ((), none)) (w.describe .deployment)

end Workflow
end Rollout
