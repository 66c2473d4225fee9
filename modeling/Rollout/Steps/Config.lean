import Rollout.Preflight
import Rollout.Settings.Form

/-!
# Commands for the steps of a workflow

Which shell command carries out each call of a workflow, and what else the steps need to know.  A
step without a command has nothing to do.
-/

namespace Rollout

structure StepsConfig where
  /-- The shell that runs the commands. -/
  shell : String := "sh"
  workingDir : Option String := none
  hostPreflights : Option String := none
  appPreflights : Option String := none
  infraInstall : Option String := none
  infraUpgrade : Option String := none
  airgapProcess : Option String := none
  appInstall : Option String := none
  appUpgrade : Option String := none
  /-- The components that are reported while the infrastructure is worked on. -/
  infraComponents : List String := ["runtime", "storage"]
  appName : String := "app"
  appVersion : String := "0.0.0"
  deriving DecidableEq, Repr, Inhabited

namespace StepsConfig

def preflights (c : StepsConfig) : PreflightScope → Option String
  | .host => c.hostPreflights
  | .app => c.appPreflights

def fields : List (Form.Field StepsConfig) :=
  let text := Form.text
  let command := Form.optional Form.text
  [.needed "shell" text shell fun v c ↦ { c with shell := v },
    .defaulted "working_dir" command workingDir fun v c ↦ { c with workingDir := v },
    .defaulted "host_preflights" command hostPreflights fun v c ↦ { c with hostPreflights := v },
    .defaulted "app_preflights" command appPreflights fun v c ↦ { c with appPreflights := v },
    .defaulted "infra_install" command infraInstall fun v c ↦ { c with infraInstall := v },
    .defaulted "infra_upgrade" command infraUpgrade fun v c ↦ { c with infraUpgrade := v },
    .defaulted "airgap_process" command airgapProcess fun v c ↦ { c with airgapProcess := v },
    .defaulted "app_install" command appInstall fun v c ↦ { c with appInstall := v },
    .defaulted "app_upgrade" command appUpgrade fun v c ↦ { c with appUpgrade := v },
    .needed "infra_components" (.list text) infraComponents
      fun v c ↦ { c with infraComponents := v },
    .needed "app_name" text appName fun v c ↦ { c with appName := v },
    .needed "app_version" text appVersion fun v c ↦ { c with appVersion := v }]

def form : Form StepsConfig := .record {} fields

end StepsConfig
end Rollout
