import Rollout.Store
import Rollout.Workflow.Plan

/-!
# What a workflow keeps

A workflow has a store for each of its activities.  All access from a computation is one field at
a time: `write` and `look` are single atomic steps.
-/

namespace Rollout

/-- The stores of a workflow. -/
structure Stores where
  config : ConfigStore := {}
  installation : InstallationStore := { result := some {} }
  hostPreflights : PreflightStore := {}
  infra : InfraStore := {}
  airgap : AirgapStore := {}
  appPreflights : PreflightStore := {}
  app : AppStore := {}

instance : Inhabited Stores := ⟨{}⟩

namespace Stores

def preflights (s : Stores) : PreflightScope → PreflightStore
  | .host => s.hostPreflights
  | .app => s.appPreflights

def modifyPreflights (f : PreflightStore → PreflightStore) (s : Stores) : PreflightScope → Stores
  | .host => { s with hostPreflights := f s.hostPreflights }
  | .app => { s with appPreflights := f s.appPreflights }

def status (s : Stores) : Activity → StatusRecord
  | .configureApp => s.config.status
  | .configureInstallation => s.installation.status
  | .task (.preflights scope) => (s.preflights scope).status
  | .task .infrastructure => s.infra.status
  | .task .airgap => s.airgap.status
  | .task .deployment => s.app.status

def setStatus (r : StatusRecord) (s : Stores) : Activity → Stores
  | .configureApp => { s with config.status := r }
  | .configureInstallation => { s with installation.status := r }
  | .task (.preflights scope) => s.modifyPreflights (fun p ↦ { p with status := r }) scope
  | .task .infrastructure => { s with infra.status := r }
  | .task .airgap => { s with airgap.status := r }
  | .task .deployment => { s with app.status := r }

/-- Change the log of a task; checks have none. -/
def modifyLog (f : Log → Log) (s : Stores) : Task → Stores
  | .preflights _ => s
  | .infrastructure => { s with infra.logs := f s.infra.logs }
  | .airgap => { s with airgap.logs := f s.airgap.logs }
  | .deployment => { s with app.logs := f s.app.logs }

def values (s : Stores) : ConfigValues := s.config.result.getD .empty

def settings (s : Stores) : InstallationConfig := s.installation.result.getD {}

end Stores

/-- What the users of one workflow share. -/
abbrev Site (S : Type) := Shared S Stores

namespace Site

variable {S : Type}

def look {α : Type} (f : Stores → α) : Proc (Site S) α := .read fun s ↦ f s.payload

def write (f : Stores → Stores) : Proc (Site S) Unit :=
  .modify fun s ↦ { s with payload := f s.payload }

/-- Set the status of an activity, as of now. -/
def mark (a : Activity) (state : Status) (text : String) : Proc (Site S) Unit :=
  .modify fun s ↦ { s with payload := s.payload.setStatus ⟨state, text, s.now⟩ a }

/-- Forget the last run of a task. -/
def clear (t : Task) : Proc (Site S) Unit := do
  write fun s ↦ s.setStatus .zero (.task t)
  match t with
  | .preflights scope =>
    write fun s ↦ s.modifyPreflights (fun p ↦ { p with titles := [] }) scope
    write fun s ↦ s.modifyPreflights (fun p ↦ { p with output := none }) scope
  | .infrastructure =>
    write fun s ↦ { s with infra.components := [] }
    write fun s ↦ s.modifyLog (fun _ ↦ {}) t
  | .airgap => write fun s ↦ s.modifyLog (fun _ ↦ {}) t
  | .deployment =>
    write fun s ↦ { s with app.release := none }
    write fun s ↦ s.modifyLog (fun _ ↦ {}) t

end Site
end Rollout
