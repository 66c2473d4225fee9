import Rollout.AppConfig
import Rollout.Net.SocketAddress
import Rollout.Steps.Config
import Rollout.Text.Quoted
import Rollout.Workflow.Target

/-!
# The settings of the installer

What is served where, which workflow runs and what clients may pass over, what is logged, the
commands of the steps, and the items of the application.
-/

namespace Rollout

namespace Settings

structure Server where
  /-- The address to listen on. -/
  bind : String := "127.0.0.1:30080"
  deriving DecidableEq, Repr, Inhabited

structure Workflow where
  mode : Mode := .install
  target : Target := .linux
  airgap : Bool := false
  allowIgnoreHost : Bool := false
  allowIgnoreApp : Bool := false
  deriving DecidableEq, Repr, Inhabited

structure Observability where
  logLevel : String := "info"
  json : Bool := false
  deriving DecidableEq, Repr, Inhabited

def Server.fields : List (Form.Field Server) :=
  [.needed "bind" .text bind fun v s ↦ { s with bind := v }]

def Server.form : Form Server := .record {} fields

def Workflow.fields : List (Form.Field Workflow) :=
  [.needed "mode" (.oneOf Mode.name Mode.names) mode fun v s ↦ { s with mode := v },
    .needed "target" (.oneOf Target.name Target.names) target fun v s ↦ { s with target := v },
    .needed "airgap" .flag airgap fun v s ↦ { s with airgap := v },
    .needed "allow_ignore_host_preflights" .flag allowIgnoreHost
      fun v s ↦ { s with allowIgnoreHost := v },
    .needed "allow_ignore_app_preflights" .flag allowIgnoreApp
      fun v s ↦ { s with allowIgnoreApp := v }]

def Workflow.form : Form Workflow := .record {} fields

def Observability.fields : List (Form.Field Observability) :=
  [.needed "log_level" .text logLevel fun v s ↦ { s with logLevel := v },
    .needed "json" .flag json fun v s ↦ { s with json := v }]

def Observability.form : Form Observability := .record {} fields

end Settings

structure Settings where
  server : Settings.Server := {}
  workflow : Settings.Workflow := {}
  observability : Settings.Observability := {}
  steps : StepsConfig := {}
  appConfig : AppConfigSchema := {}
  deriving Repr, Inhabited

namespace Settings

def form : Form Settings :=
  .record {}
    [.needed "server" Server.form server fun v s ↦ { s with server := v },
      .needed "workflow" Workflow.form workflow fun v s ↦ { s with workflow := v },
      .needed "observability" Observability.form observability
        fun v s ↦ { s with observability := v },
      .needed "steps" StepsConfig.form steps fun v s ↦ { s with steps := v },
      .defaulted "app_config" AppConfigSchema.form appConfig fun v s ↦ { s with appConfig := v }]

/-! ### Validity -/

/-- Why settings cannot be used. -/
inductive Problem where
  /-- The address to listen on is none. -/
  | bindAddress (text : String)
  /-- An airgap bundle is for Linux hosts only. -/
  | airgapTarget
  | unnamedItem
  | duplicateItem (name : String)
  deriving DecidableEq, Repr

def Problem.message : Problem → String
  | bindAddress text => "Invalid bind address " ++ Text.quoted text
  | airgapTarget => "airgap installations are only supported on linux targets"
  | unnamedItem => "app config items must have a name"
  | duplicateItem name => "duplicate app config item " ++ Text.quoted name

def address (s : Settings) : Except Problem Net.SocketAddress :=
  match Net.SocketAddress.parse? s.server.bind with
  | some a => .ok a
  | none => .error (.bindAddress s.server.bind)

/-- The names are not empty and differ from each other and from those `seen`. -/
def checkNames (seen : List String) : List String → Except Problem Unit
  | [] => .ok ()
  | name :: more =>
    if name.isEmpty then .error .unnamedItem
    else if seen.contains name then .error (.duplicateItem name)
    else checkNames (name :: seen) more

def validate (s : Settings) : Except Problem Unit := do
  let _ ← s.address
  if s.workflow.airgap && s.workflow.target = .kubernetes then .error .airgapTarget
  checkNames [] (s.appConfig.items.map (·.name))

end Settings
end Rollout
