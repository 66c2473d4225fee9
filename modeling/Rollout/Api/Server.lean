import Rollout.Api.Message
import Rollout.Api.Route
import Rollout.Workflow.Action

/-!
# Answering requests

`handle` is the answer to a request as a computation on the workflow that the server serves.  It
reads the fields of a status one by one, so that an answer may fall between two steps of a job
that is running.  An accepted task leaves its job behind.
-/

namespace Rollout.Api

variable {S : Type} [DecidableEq S] [ToString S]

def transitionJson (t : Transition S) : Json :=
  .object [("from", .string (toString t.source)), ("to", .string (toString t.target)),
    ("at", .string t.time.text)]

def stateBody : Proc (Site S) Json := do
  let state ← Proc.read (·.engine.current)
  let busy ← Proc.read (·.engine.isLocked)
  let last ← Proc.read (·.engine.last)
  return .object [("state", .string (toString state)), ("busy", .bool busy),
    ("lastTransition", .ofOption transitionJson last)]

/-- The status of an activity, and what its store has besides. -/
def statusBody (w : Workflow S) (a : Activity) : Proc (Site S) Json := do
  match a with
  | .configureApp | .configureInstallation => return (← Site.look fun s ↦ s.status a).toJson
  | .task (.preflights scope) =>
    let titles ← Site.look fun s ↦ (s.preflights scope).titles
    let output ← Site.look fun s ↦ (s.preflights scope).output
    let status ← Site.look fun s ↦ (s.preflights scope).status
    return .object [("titles", .strings titles),
      ("output", .ofOption PreflightOutput.toJson output),
      ("status", status.toJson), ("allowIgnore", .bool (w.options.allowsIgnoring scope))]
  | .task .infrastructure =>
    let status ← Site.look (·.infra.status)
    let components ← Site.look (·.infra.components)
    let logs ← Site.look (·.infra.logs)
    return .object [("status", status.toJson),
      ("components", .array (components.map ComponentStatus.toJson)), ("logs", .string logs.text)]
  | .task .airgap =>
    let status ← Site.look (·.airgap.status)
    let logs ← Site.look (·.airgap.logs)
    return .object [("status", status.toJson), ("logs", .string logs.text)]
  | .task .deployment =>
    let status ← Site.look (·.app.status)
    let release ← Site.look (·.app.release)
    let logs ← Site.look (·.app.logs)
    return .object [("status", status.toJson), ("release", .ofOption AppRelease.toJson release),
      ("logs", .string logs.text)]

def Query.body (w : Workflow S) : Query → Proc (Site S) Json
  | health => return .object [("status", .string "ok"), ("mode", .string w.plan.mode.name)]
  | metrics => return (← Proc.read (·.counters)).toJson
  | state => stateBody
  | values => return valuesBody (← w.values)
  | settings => return (← Site.look Stores.settings).toJson
  | status a => statusBody w a

def responseTo : Answer S → Response
  | .values v => .json 200 (valuesBody v)
  | .settings c => .json 200 c.toJson
  | .accepted r => .json 202 r.toJson
  | .refused e => .json e.statusCode e.body

/-- The client may ask to pass over the checks that gate a task. -/
def readsIgnore (w : Workflow S) (t : Task) : Bool := (t.gatedBy?.bind w.plan.gate).isSome

def Command.action (w : Workflow S) (r : Request) : Command → Except BodyError Action
  | patchValues => (r.readBody valuesDecoder).map .patchValues
  | configureInstallation => (r.readBody InstallationConfig.decoder).map .configureInstallation
  | begin t =>
    if readsIgnore w t then (r.readOptionalBody ignoreDecoder false).map (.begin t)
    else .ok (.begin t false)

def Command.perform (w : Workflow S) (r : Request) (c : Command) :
    Proc (Site S) (Response × Option (Job S)) :=
  match c.action w r with
  | .error e => return (e.response, none)
  | .ok a => do
    let (answer, job) ← w.act a
    return (responseTo answer, job)

def handle (w : Workflow S) (r : Request) : Proc (Site S) (Response × Option (Job S)) :=
  match Route.find? w.plan.mode r.path with
  | none => return ({ status := 404 }, none)
  | some route =>
    let notAllowed : Response := { status := 405, allow := some route.allow }
    match route.query, route.command with
    | some q, command =>
      if r.method = "GET" then do return (.json 200 (← q.body w), none)
      else if r.method = "HEAD" then do
        let _ ← q.body w
        return ({ status := 200 }, none)
      else match command with
        | some c => if r.method = c.method then c.perform w r else return (notAllowed, none)
        | none => return (notAllowed, none)
    | none, some c => if r.method = c.method then c.perform w r else return (notAllowed, none)
    | none, none => return (notAllowed, none)

end Rollout.Api
