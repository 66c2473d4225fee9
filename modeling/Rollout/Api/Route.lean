import Rollout.Workflow.Plan

/-!
# The routes of the API

Each path has at most one query and one command.  A query answers `GET` and `HEAD`.
-/

namespace Rollout.Api

/-- What can be asked. -/
inductive Query where
  | health
  | metrics
  | state
  | values
  | settings
  | status (a : Activity)
  deriving DecidableEq, Repr

/-- What can be done. -/
inductive Command where
  | patchValues
  | configureInstallation
  | begin (t : Task)
  deriving DecidableEq, Repr

def Command.method : Command → String
  | patchValues => "PATCH"
  | configureInstallation | begin _ => "POST"

/-- A path and what it is for. -/
structure Route where
  path : String
  query : Option Query := none
  command : Option Command := none
  deriving DecidableEq, Repr

namespace Route

def ask (path : String) (q : Query) : Route := { path := path, query := some q }

def act (path : String) (c : Command) : Route := { path := path, command := some c }

def allow (r : Route) : String :=
  ",".intercalate <| (if r.query.isSome then ["GET", "HEAD"] else []) ++
    r.command.toList.map Command.method

def values : Route := ⟨"app/config/values", some .values, some .patchValues⟩

def install : List Route :=
  [ask "state" .state, values, ask "app/config/status" (.status .configureApp),
    ask "installation/config" .settings, act "installation/configure" .configureInstallation,
    ask "installation/status" (.status .configureInstallation),
    act "host-preflights/run" (.begin (.preflights .host)),
    ask "host-preflights/status" (.status (.task (.preflights .host))),
    act "infra/setup" (.begin .infrastructure),
    ask "infra/status" (.status (.task .infrastructure)),
    act "airgap/process" (.begin .airgap), ask "airgap/status" (.status (.task .airgap)),
    act "app-preflights/run" (.begin (.preflights .app)),
    ask "app-preflights/status" (.status (.task (.preflights .app))),
    act "app/install" (.begin .deployment), ask "app/status" (.status (.task .deployment))]

def upgrade : List Route :=
  [ask "state" .state, values, ask "app/config/status" (.status .configureApp),
    act "airgap/process" (.begin .airgap), ask "airgap/status" (.status (.task .airgap)),
    act "infra/upgrade" (.begin .infrastructure),
    ask "infra/status" (.status (.task .infrastructure)),
    act "app-preflights/run" (.begin (.preflights .app)),
    ask "app-preflights/status" (.status (.task (.preflights .app))),
    act "app/upgrade" (.begin .deployment), ask "app/status" (.status (.task .deployment))]

def ofMode : Mode → List Route
  | .install => install
  | .upgrade => upgrade

def root (mode : Mode) : String := "/api/" ++ mode.name ++ "/"

def all (mode : Mode) : List Route :=
  ask "/health" .health :: ask "/metrics" .metrics ::
    (ofMode mode).map fun r ↦ { r with path := root mode ++ r.path }

def find? (mode : Mode) (path : String) : Option Route := (all mode).find? (·.path == path)

end Route
end Rollout.Api
