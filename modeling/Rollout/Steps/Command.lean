import Rollout.Steps.Config
import Rollout.Steps.Output
import Rollout.Workflow.Action

/-!
# Steps that run commands

Each call of a workflow runs the command configured for it.  What the command does is left open:
`carryOut` is given the attempts to run commands as a function.  The lines that a command writes
go to the log of the task; the components of the infrastructure are reported around it.

Both streams of a command are read at once, and their lines may come to the log in turns.  Here the
lines of the one stand before those of the other (`Run.logged`), which is one of the ways in which
they may come.
-/

namespace Rollout.Steps

/-- A command that is to be run. -/
structure Invocation where
  shell : String
  workingDir : Option String
  command : String
  environment : List (String × String)
  deriving DecidableEq, Repr

/-- What comes of an attempt to run a command. -/
inductive Run where
  | notStarted (reason : String)
  /-- The command was ended before it ended itself. -/
  | cancelled (stdout stderr : List UInt8)
  /-- The output could not be read on after these lines, or the end not be waited for. -/
  | lost (logged : List String) (reason : String)
  | ended (o : CommandOutput)
  deriving DecidableEq, Repr

namespace Run

/-- The lines that went to the log. -/
def logged : Run → List String
  | notStarted _ => []
  | cancelled stdout stderr => endedLines stdout ++ endedLines stderr
  | lost logged _ => logged
  | ended o => lines o.stdout ++ lines o.stderr

def output (step : String) : Run → Except Failure CommandOutput
  | notStarted reason => .error (.message ["Failed to start " ++ step ++ " command", reason])
  | cancelled .. => .error (.message [step ++ " was cancelled"])
  | lost _ reason => .error (.message ["Failed to run " ++ step ++ " command", reason])
  | ended o => .ok o

end Run

def stepName : Call → String
  | .preflights scope => scope.name ++ " preflights"
  | .installInfrastructure _ => "infrastructure install"
  | .upgradeInfrastructure => "infrastructure upgrade"
  | .processAirgap => "airgap processing"
  | .installApp _ => "app install"
  | .upgradeApp _ => "app upgrade"

def commandFor (c : StepsConfig) : Call → Option String
  | .preflights scope => c.preflights scope
  | .installInfrastructure _ => c.infraInstall
  | .upgradeInfrastructure => c.infraUpgrade
  | .processAirgap => c.airgapProcess
  | .installApp _ => c.appInstall
  | .upgradeApp _ => c.appUpgrade

def environmentOf : Call → List (String × String)
  | .preflights scope => [("CLUSTER_INSTALLER_PREFLIGHT_SCOPE", scope.name)]
  | .installInfrastructure settings => [("CLUSTER_INSTALLER_INSTALLATION", settings.toJson.text)]
  | .upgradeInfrastructure | .processAirgap => []
  | .installApp values | .upgradeApp values =>
    [("CLUSTER_INSTALLER_CONFIG_VALUES", (ConfigValues.toJson values).text)]

def invocation (c : StepsConfig) (call : Call) (command : String) : Invocation :=
  ⟨c.shell, c.workingDir, command, environmentOf call⟩

/-- The title of the check that stands for a command. -/
def checkTitle : PreflightScope → String
  | .host => "Host preflight checks"
  | .app => "Application preflight checks"

def titles (c : StepsConfig) (scope : PreflightScope) : List String :=
  if (c.preflights scope).isSome then [checkTitle scope] else []

def runChecks (c : StepsConfig) (run : Invocation → Run) (scope : PreflightScope) :
    Except Failure PreflightOutput :=
  match c.preflights scope with
  | none => .ok {}
  | some command =>
    ((run (invocation c (.preflights scope) command)).output (stepName (.preflights scope))).map
      (checks (checkTitle scope))

/-- Run a step that only has to succeed: what it logs, and whether it did. -/
def runStep (c : StepsConfig) (run : Invocation → Run) (call : Call) :
    List String × Except Failure Unit :=
  let step := stepName call
  match commandFor c call with
  | none => (["No command configured for " ++ step ++ ", skipping"], .ok ())
  | some command =>
    let r := run (invocation c call command)
    (r.logged, do
      let o ← r.output step
      if o.status.isSuccess then .ok ()
      else .error (.message [step ++ " command failed with " ++ o.status.text]))

def reportAll (c : StepsConfig) (state : Status) (text : String) : List Progress :=
  c.infraComponents.map fun name ↦ .component name state text

/-- The reports around a step that changes the infrastructure. -/
def infraProgress (c : StepsConfig) (step : String) (logged : List String) :
    Except Failure Unit → List Progress := fun result ↦
  .components c.infraComponents :: reportAll c .running step ++ logged.map .line ++
    match result with
    | .ok () => reportAll c .succeeded step
    | .error e => reportAll c .failed e.outermost

def outcome {α : Type} : Except Failure α → Outcome α
  | .ok a => .returned a
  | .error e => .failed e

/-- Carry out a call: what is reported on the way, and the outcome. -/
def carryOut (c : StepsConfig) (run : Invocation → Run) (now : Timestamp) (call : Call) :
    List Progress × Outcome call.task.Value :=
  match call with
  | .preflights scope => ([], outcome (runChecks c run scope))
  | .installInfrastructure settings =>
    let (logged, result) := runStep c run (.installInfrastructure settings)
    (infraProgress c (stepName (.installInfrastructure settings)) logged result, outcome result)
  | .upgradeInfrastructure =>
    let (logged, result) := runStep c run .upgradeInfrastructure
    (infraProgress c (stepName .upgradeInfrastructure) logged result, outcome result)
  | .processAirgap =>
    let (logged, result) := runStep c run .processAirgap
    (logged.map .line, outcome result)
  | .installApp values =>
    let (logged, result) := runStep c run (.installApp values)
    (logged.map .line, outcome (result.map fun _ ↦ (⟨c.appName, c.appVersion, now⟩ : AppRelease)))
  | .upgradeApp values =>
    let (logged, result) := runStep c run (.upgradeApp values)
    (logged.map .line, outcome (result.map fun _ ↦ (⟨c.appName, c.appVersion, now⟩ : AppRelease)))

end Rollout.Steps
