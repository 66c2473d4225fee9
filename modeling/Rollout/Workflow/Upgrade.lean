import Rollout.Table
import Rollout.Workflow.Target

/-!
# The upgrade workflow

On Linux: configure the application, load the airgap bundle if there is one, upgrade the
infrastructure, check the cluster, upgrade the application.  On Kubernetes only the application
is configured, checked and upgraded, and configuration may change after the checks.
-/

namespace Rollout

inductive UpgradeState where
  | new
  | applicationConfiguring
  | applicationConfigured
  | applicationConfigurationFailed
  | airgapProcessing
  | airgapProcessed
  | airgapProcessingFailed
  | infrastructureUpgrading
  | infrastructureUpgraded
  | infrastructureUpgradeFailed
  | appPreflightsRunning
  | appPreflightsSucceeded
  | appPreflightsFailed
  | appPreflightsExecutionFailed
  | appPreflightsFailedBypassed
  | appUpgrading
  | succeeded
  | appUpgradeFailed
  deriving DecidableEq, Repr, Inhabited

namespace UpgradeState

def name : UpgradeState → String
  | new => "New"
  | applicationConfiguring => "ApplicationConfiguring"
  | applicationConfigured => "ApplicationConfigured"
  | applicationConfigurationFailed => "ApplicationConfigurationFailed"
  | airgapProcessing => "AirgapProcessing"
  | airgapProcessed => "AirgapProcessed"
  | airgapProcessingFailed => "AirgapProcessingFailed"
  | infrastructureUpgrading => "InfrastructureUpgrading"
  | infrastructureUpgraded => "InfrastructureUpgraded"
  | infrastructureUpgradeFailed => "InfrastructureUpgradeFailed"
  | appPreflightsRunning => "AppPreflightsRunning"
  | appPreflightsSucceeded => "AppPreflightsSucceeded"
  | appPreflightsFailed => "AppPreflightsFailed"
  | appPreflightsExecutionFailed => "AppPreflightsExecutionFailed"
  | appPreflightsFailedBypassed => "AppPreflightsFailedBypassed"
  | appUpgrading => "AppUpgrading"
  | succeeded => "Succeeded"
  | appUpgradeFailed => "AppUpgradeFailed"

instance : ToString UpgradeState := ⟨name⟩

def all : List UpgradeState :=
  [.new, .applicationConfiguring, .applicationConfigured, .applicationConfigurationFailed,
    .airgapProcessing, .airgapProcessed, .airgapProcessingFailed, .infrastructureUpgrading,
    .infrastructureUpgraded, .infrastructureUpgradeFailed, .appPreflightsRunning,
    .appPreflightsSucceeded, .appPreflightsFailed, .appPreflightsExecutionFailed,
    .appPreflightsFailedBypassed, .appUpgrading, .succeeded, .appUpgradeFailed]

/-- States ascend as they are listed. -/
instance : LE UpgradeState := ⟨fun a b ↦ a.ctorIdx ≤ b.ctorIdx⟩

instance : DecidableLE UpgradeState := fun a b ↦ inferInstanceAs (Decidable (a.ctorIdx ≤ b.ctorIdx))

def ofName? (s : String) : Option UpgradeState := all.find? (·.name == s)

def decoder : Json.Decoder UpgradeState := .oneOf (all.map fun s ↦ (s.name, s))

def checked : List UpgradeState :=
  [.appPreflightsSucceeded, .appPreflightsFailed, .appPreflightsExecutionFailed]

/-- The end of the workflow: app preflights, entered from `entry`, and the app's upgrade. -/
def appEntries (entry : UpgradeState) : List (UpgradeState × List UpgradeState) :=
  [(.appPreflightsRunning, entry :: checked),
    (.appPreflightsSucceeded, [.appPreflightsRunning]),
    (.appPreflightsFailed, [.appPreflightsRunning]),
    (.appPreflightsExecutionFailed, [.appPreflightsRunning]),
    (.appPreflightsFailedBypassed, [.appPreflightsFailed]),
    (.appUpgrading, [.appPreflightsSucceeded, .appPreflightsFailedBypassed]),
    (.succeeded, [.appUpgrading]),
    (.appUpgradeFailed, [.appUpgrading])]

/-- The configuration of the application, which `more` states may precede besides its own. -/
def configurationEntries (more : List UpgradeState) : List (UpgradeState × List UpgradeState) :=
  [(.applicationConfiguring,
      [.new, .applicationConfigured, .applicationConfigurationFailed] ++ more),
    (.applicationConfigured, [.applicationConfiguring]),
    (.applicationConfigurationFailed, [.applicationConfiguring])]

def linuxEntries (airgap : Bool) : List (UpgradeState × List UpgradeState) :=
  configurationEntries (if airgap then [.airgapProcessed, .airgapProcessingFailed] else []) ++
  (if airgap then
    [(.airgapProcessing, [.applicationConfigured, .airgapProcessingFailed]),
      (.airgapProcessed, [.airgapProcessing]),
      (.airgapProcessingFailed, [.airgapProcessing])]
  else []) ++
  [(.infrastructureUpgrading, [if airgap then .airgapProcessed else .applicationConfigured]),
    (.infrastructureUpgraded, [.infrastructureUpgrading]),
    (.infrastructureUpgradeFailed, [.infrastructureUpgrading])] ++
  appEntries .infrastructureUpgraded

def kubernetesEntries : List (UpgradeState × List UpgradeState) :=
  configurationEntries checked ++ appEntries .applicationConfigured

/-- The transitions of the workflow.  An airgap bundle matters on Linux only. -/
def table (target : Target) (airgap : Bool) : TransitionTable UpgradeState :=
  .ofList <| match target with
    | .linux => linuxEntries airgap
    | .kubernetes => kubernetesEntries

end UpgradeState
end Rollout
