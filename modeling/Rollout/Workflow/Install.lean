import Rollout.Table
import Rollout.Workflow.Target

/-!
# The install workflow

On Linux: configure the application and the installation, check the hosts, install the
infrastructure, load the airgap bundle if there is one, check the cluster, install the
application.  On Kubernetes the hosts and the bundle do not come into it.  Configuration may
change until the infrastructure is installed.
-/

namespace Rollout

inductive InstallState where
  | new
  | applicationConfiguring
  | applicationConfigured
  | applicationConfigurationFailed
  | installationConfiguring
  | installationConfigured
  | installationConfigurationFailed
  | hostPreflightsRunning
  | hostPreflightsSucceeded
  | hostPreflightsFailed
  | hostPreflightsExecutionFailed
  | hostPreflightsFailedBypassed
  | infrastructureInstalling
  | infrastructureInstalled
  | infrastructureInstallFailed
  | airgapProcessing
  | airgapProcessed
  | airgapProcessingFailed
  | appPreflightsRunning
  | appPreflightsSucceeded
  | appPreflightsFailed
  | appPreflightsExecutionFailed
  | appPreflightsFailedBypassed
  | appInstalling
  | succeeded
  | appInstallFailed
  deriving DecidableEq, Repr, Inhabited

namespace InstallState

def name : InstallState → String
  | new => "New"
  | applicationConfiguring => "ApplicationConfiguring"
  | applicationConfigured => "ApplicationConfigured"
  | applicationConfigurationFailed => "ApplicationConfigurationFailed"
  | installationConfiguring => "InstallationConfiguring"
  | installationConfigured => "InstallationConfigured"
  | installationConfigurationFailed => "InstallationConfigurationFailed"
  | hostPreflightsRunning => "HostPreflightsRunning"
  | hostPreflightsSucceeded => "HostPreflightsSucceeded"
  | hostPreflightsFailed => "HostPreflightsFailed"
  | hostPreflightsExecutionFailed => "HostPreflightsExecutionFailed"
  | hostPreflightsFailedBypassed => "HostPreflightsFailedBypassed"
  | infrastructureInstalling => "InfrastructureInstalling"
  | infrastructureInstalled => "InfrastructureInstalled"
  | infrastructureInstallFailed => "InfrastructureInstallFailed"
  | airgapProcessing => "AirgapProcessing"
  | airgapProcessed => "AirgapProcessed"
  | airgapProcessingFailed => "AirgapProcessingFailed"
  | appPreflightsRunning => "AppPreflightsRunning"
  | appPreflightsSucceeded => "AppPreflightsSucceeded"
  | appPreflightsFailed => "AppPreflightsFailed"
  | appPreflightsExecutionFailed => "AppPreflightsExecutionFailed"
  | appPreflightsFailedBypassed => "AppPreflightsFailedBypassed"
  | appInstalling => "AppInstalling"
  | succeeded => "Succeeded"
  | appInstallFailed => "AppInstallFailed"

instance : ToString InstallState := ⟨name⟩

def all : List InstallState :=
  [.new, .applicationConfiguring, .applicationConfigured, .applicationConfigurationFailed,
    .installationConfiguring, .installationConfigured, .installationConfigurationFailed,
    .hostPreflightsRunning, .hostPreflightsSucceeded, .hostPreflightsFailed,
    .hostPreflightsExecutionFailed, .hostPreflightsFailedBypassed, .infrastructureInstalling,
    .infrastructureInstalled, .infrastructureInstallFailed, .airgapProcessing, .airgapProcessed,
    .airgapProcessingFailed, .appPreflightsRunning, .appPreflightsSucceeded,
    .appPreflightsFailed, .appPreflightsExecutionFailed, .appPreflightsFailedBypassed,
    .appInstalling, .succeeded, .appInstallFailed]

/-- States ascend as they are listed. -/
instance : LE InstallState := ⟨fun a b ↦ a.ctorIdx ≤ b.ctorIdx⟩

instance : DecidableLE InstallState := fun a b ↦ inferInstanceAs (Decidable (a.ctorIdx ≤ b.ctorIdx))

def ofName? (s : String) : Option InstallState := all.find? (·.name == s)

def decoder : Json.Decoder InstallState := .oneOf (all.map fun s ↦ (s.name, s))

def checked : List InstallState :=
  [.appPreflightsSucceeded, .appPreflightsFailed, .appPreflightsExecutionFailed]

/-- The end of the workflow: app preflights, entered from `entry`, and the app's installation. -/
def appEntries (entry : InstallState) : List (InstallState × List InstallState) :=
  [(.appPreflightsRunning, entry :: checked),
    (.appPreflightsSucceeded, [.appPreflightsRunning]),
    (.appPreflightsFailed, [.appPreflightsRunning]),
    (.appPreflightsExecutionFailed, [.appPreflightsRunning]),
    (.appPreflightsFailedBypassed, [.appPreflightsFailed]),
    (.appInstalling, [.appPreflightsSucceeded, .appPreflightsFailedBypassed]),
    (.succeeded, [.appInstalling]),
    (.appInstallFailed, [.appInstalling])]

def hostChecked : List InstallState :=
  [.hostPreflightsSucceeded, .hostPreflightsFailed, .hostPreflightsExecutionFailed]

/-- The states in which the application or the installation has been configured or was
rejected. -/
def installationTried : List InstallState :=
  [.installationConfigured, .installationConfigurationFailed]

/-- The configuration part of the workflow; `checks` are the states after which it may be entered
again. -/
def configurationEntries (checks : List InstallState) : List (InstallState × List InstallState) :=
  [(.applicationConfiguring,
      [.new, .applicationConfigured, .applicationConfigurationFailed] ++ installationTried ++
        checks),
    (.applicationConfigured, [.applicationConfiguring]),
    (.applicationConfigurationFailed, [.applicationConfiguring]),
    (.installationConfiguring, [.applicationConfigured] ++ installationTried ++ checks),
    (.installationConfigured, [.installationConfiguring]),
    (.installationConfigurationFailed, [.installationConfiguring])]

def infrastructureEntries (ready : List InstallState) : List (InstallState × List InstallState) :=
  [(.infrastructureInstalling, ready),
    (.infrastructureInstalled, [.infrastructureInstalling]),
    (.infrastructureInstallFailed, [.infrastructureInstalling])]

def linuxEntries (airgap : Bool) : List (InstallState × List InstallState) :=
  configurationEntries hostChecked ++
  [(.hostPreflightsRunning, .installationConfigured :: hostChecked),
    (.hostPreflightsSucceeded, [.hostPreflightsRunning]),
    (.hostPreflightsFailed, [.hostPreflightsRunning]),
    (.hostPreflightsExecutionFailed, [.hostPreflightsRunning]),
    (.hostPreflightsFailedBypassed, [.hostPreflightsFailed])] ++
  infrastructureEntries [.hostPreflightsSucceeded, .hostPreflightsFailedBypassed] ++
  if airgap then
    [(.airgapProcessing, [.infrastructureInstalled, .airgapProcessingFailed]),
      (.airgapProcessed, [.airgapProcessing]),
      (.airgapProcessingFailed, [.airgapProcessing])] ++ appEntries .airgapProcessed
  else appEntries .infrastructureInstalled

def kubernetesEntries : List (InstallState × List InstallState) :=
  configurationEntries [] ++ infrastructureEntries [.installationConfigured] ++
  appEntries .infrastructureInstalled

/-- The transitions of the workflow.  An airgap bundle matters on Linux only. -/
def table (target : Target) (airgap : Bool) : TransitionTable InstallState :=
  .ofList <| match target with
    | .linux => linuxEntries airgap
    | .kubernetes => kubernetesEntries

end InstallState
end Rollout
