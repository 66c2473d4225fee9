import Rollout.Operation
import Rollout.Preflight
import Rollout.Workflow.Install
import Rollout.Workflow.Upgrade

/-!
# What a workflow consists of

A workflow does its activities one at a time.  Some are done while the client waits; the tasks go
on in the background.  A plan names, for one mode, the states that each activity moves through and
the states around its preflight checks; both modes are plans of the same kind, so the actions are
defined once for both.
-/

namespace Rollout

/-- The activities that go on in the background. -/
inductive Task where
  | preflights (scope : PreflightScope)
  | infrastructure
  | airgap
  | deployment
  deriving DecidableEq, Repr

def Task.all : List Task := [preflights .host, infrastructure, airgap, preflights .app, deployment]

/-- The checks whose failure stands in the way of a task. -/
def Task.gatedBy? : Task → Option PreflightScope
  | infrastructure => some .host
  | deployment => some .app
  | preflights _ | airgap => none

/-- What a workflow does under its lock. -/
inductive Activity where
  | configureApp
  | configureInstallation
  | task (t : Task)
  deriving DecidableEq, Repr

def Activity.all : List Activity := configureApp :: configureInstallation :: Task.all.map task

/-- What is decided about a workflow before it begins. -/
structure Options where
  target : Target := .linux
  airgap : Bool := false
  allowIgnoreHost : Bool := false
  allowIgnoreApp : Bool := false
  deriving DecidableEq, Repr, Inhabited

/-- Clients may pass over failed checks of a scope. -/
def Options.allowsIgnoring (o : Options) : PreflightScope → Bool
  | .host => o.allowIgnoreHost
  | .app => o.allowIgnoreApp

/-- The states around checks that reported failures. -/
structure Gate (S : Type) where
  /-- The checks reported failures. -/
  closed : S
  /-- The failures are passed over. -/
  bypassed : S
  deriving DecidableEq, Repr

/-- How a task describes its progress; what went wrong follows `failed`. -/
structure Labels where
  running : String
  succeeded : String
  failed : String
  deriving DecidableEq, Repr

/-- The workflow of one mode. -/
structure Plan (S : Type) where
  mode : Mode
  initial : S
  table : Target → Bool → TransitionTable S
  /-- The states of an activity, or the name of one that the workflow does not have. -/
  stages : Options → Activity → Except String (Stages S)
  gate : PreflightScope → Option (Gate S)
  labels : Task → Labels

def preflightLabels (scope : PreflightScope) : Labels :=
  ⟨"Running " ++ scope.name ++ " preflight checks", scope.name ++ " preflight checks passed",
    scope.name ++ " preflight checks did not complete"⟩

def checksFailedLabel (scope : PreflightScope) : String := scope.name ++ " preflight checks failed"

/-- How the processing of an airgap bundle describes its progress. -/
def airgapLabels : Labels :=
  ⟨"Processing airgap bundle", "Airgap bundle processed", "Airgap processing failed"⟩

/-- The stages of an activity that only some workflows have. -/
def stagesWhen {S : Type} (supported : Bool) (what : String) (stages : Stages S) :
    Except String (Stages S) :=
  if supported then .ok stages else .error what

/-- The workflow has an airgap bundle to process. -/
def Options.hasBundle (o : Options) : Bool := o.target == .linux && o.airgap

def InstallState.labels : Task → Labels
  | .preflights scope => preflightLabels scope
  | .infrastructure =>
    ⟨"Installing infrastructure", "Infrastructure installed", "Infrastructure installation failed"⟩
  | .airgap => airgapLabels
  | .deployment =>
    ⟨"Installing application", "Application installed", "Application installation failed"⟩

def InstallState.stages (o : Options) : Activity → Except String (Stages InstallState)
  | .configureApp =>
    .ok ⟨.applicationConfiguring, .applicationConfigured, .applicationConfigurationFailed⟩
  | .configureInstallation =>
    .ok ⟨.installationConfiguring, .installationConfigured, .installationConfigurationFailed⟩
  | .task (.preflights .host) =>
    stagesWhen (o.target == .linux) "host preflights"
      ⟨.hostPreflightsRunning, .hostPreflightsSucceeded, .hostPreflightsExecutionFailed⟩
  | .task .infrastructure =>
    .ok ⟨.infrastructureInstalling, .infrastructureInstalled, .infrastructureInstallFailed⟩
  | .task .airgap =>
    stagesWhen o.hasBundle "airgap processing"
      ⟨.airgapProcessing, .airgapProcessed, .airgapProcessingFailed⟩
  | .task (.preflights .app) =>
    .ok ⟨.appPreflightsRunning, .appPreflightsSucceeded, .appPreflightsExecutionFailed⟩
  | .task .deployment => .ok ⟨.appInstalling, .succeeded, .appInstallFailed⟩

def InstallState.gate : PreflightScope → Gate InstallState
  | .host => ⟨.hostPreflightsFailed, .hostPreflightsFailedBypassed⟩
  | .app => ⟨.appPreflightsFailed, .appPreflightsFailedBypassed⟩

def InstallState.plan : Plan InstallState where
  mode := .install
  initial := .new
  table := InstallState.table
  stages := InstallState.stages
  gate scope := some (InstallState.gate scope)
  labels := InstallState.labels

def UpgradeState.labels : Task → Labels
  | .preflights scope => preflightLabels scope
  | .infrastructure =>
    ⟨"Upgrading infrastructure", "Infrastructure upgraded", "Infrastructure upgrade failed"⟩
  | .airgap => airgapLabels
  | .deployment => ⟨"Upgrading application", "Application upgraded", "Application upgrade failed"⟩

/-- The states of an upgrade's activities.  The hosts are not checked, and their settings are
those of the running installation. -/
def UpgradeState.stages (o : Options) : Activity → Except String (Stages UpgradeState)
  | .configureApp =>
    .ok ⟨.applicationConfiguring, .applicationConfigured, .applicationConfigurationFailed⟩
  | .configureInstallation => .error "installation configuration"
  | .task (.preflights .host) => .error "host preflights"
  | .task .infrastructure =>
    stagesWhen (o.target == .linux) "infrastructure upgrade"
      ⟨.infrastructureUpgrading, .infrastructureUpgraded, .infrastructureUpgradeFailed⟩
  | .task .airgap =>
    stagesWhen o.hasBundle "airgap processing"
      ⟨.airgapProcessing, .airgapProcessed, .airgapProcessingFailed⟩
  | .task (.preflights .app) =>
    .ok ⟨.appPreflightsRunning, .appPreflightsSucceeded, .appPreflightsExecutionFailed⟩
  | .task .deployment => .ok ⟨.appUpgrading, .succeeded, .appUpgradeFailed⟩

def UpgradeState.gate : PreflightScope → Option (Gate UpgradeState)
  | .host => none
  | .app => some ⟨.appPreflightsFailed, .appPreflightsFailedBypassed⟩

def UpgradeState.plan : Plan UpgradeState where
  mode := .upgrade
  initial := .new
  table := UpgradeState.table
  stages := UpgradeState.stages
  gate := UpgradeState.gate
  labels := UpgradeState.labels

end Rollout
