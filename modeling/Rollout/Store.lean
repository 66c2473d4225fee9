import Rollout.AppConfig
import Rollout.Installation
import Rollout.Log
import Rollout.Preflight
import Rollout.Release
import Rollout.Status

/-!
# Status stores

What clients can ask about each action while it runs and afterwards.  Every store has a status
record; some have a result, and those of long actions have a log.
-/

namespace Rollout

/-- A status and a result. -/
structure StatusStore (R : Type) where
  status : StatusRecord := {}
  result : Option R := none

instance : Inhabited (StatusStore R) := ⟨{}⟩

structure PreflightStore where
  status : StatusRecord := {}
  titles : List String := []
  output : Option PreflightOutput := none
  deriving DecidableEq, Repr, Inhabited

structure InfraStore where
  status : StatusRecord := {}
  components : List ComponentStatus := []
  logs : Log := {}
  deriving DecidableEq, Repr, Inhabited

structure AirgapStore where
  status : StatusRecord := {}
  logs : Log := {}
  deriving DecidableEq, Repr, Inhabited

/-- Progress of the application's deployment, and what was deployed. -/
structure AppStore where
  status : StatusRecord := {}
  release : Option AppRelease := none
  logs : Log := {}
  deriving DecidableEq, Repr, Inhabited

namespace InfraStore

def register (s : InfraStore) (names : List String) (now : Timestamp) : InfraStore :=
  { s with components := names.map fun n ↦ ⟨n, ⟨.pending, "", now⟩⟩ }

/-- Set the status of the first component with this name, or add the component. -/
def setComponent (name : String) (status : StatusRecord) :
    List ComponentStatus → List ComponentStatus
  | [] => [⟨name, status⟩]
  | c :: more =>
    if c.name = name then ⟨name, status⟩ :: more else c :: setComponent name status more

def updateComponent (s : InfraStore) (name : String) (status : StatusRecord) : InfraStore :=
  { s with components := setComponent name status s.components }

end InfraStore

/-- The settings submitted for the application, and the status of the last submission. -/
abbrev ConfigStore := StatusStore ConfigValues

/-- The settings of the installation, and the status of the last submission. -/
abbrev InstallationStore := StatusStore InstallationConfig

end Rollout
