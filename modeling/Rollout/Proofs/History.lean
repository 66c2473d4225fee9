import Rollout.Proofs.Acted
import Rollout.Workflow.Session

/-!
# Histories

The history of a session tells what has happened in it: which configurations were tried, which
calls collaborators got, and how these ended.  Refusals and reports leave no trace in it.  A
session is followed by its outline, which forgets the engine's lock and most of the stores:
`Workflow.Step` says how a fact changes the outline, and every run of a session is a trace of such
steps along its history.
-/

namespace Rollout

variable {S : Type}

/-! ### Facts -/

/-- Something that has happened in a session. -/
inductive Fact where
  /-- A patch was tried. -/
  | patched (patch : ConfigValues) (accepted : Bool)
  /-- Settings of the installation were tried. -/
  | configured (settings : InstallationConfig) (accepted : Bool)
  /-- A task was accepted, and its collaborator called; the flag is that of the action. -/
  | began (t : Task) (ignore : Bool) (call : Call)
  /-- The collaborator of a task was done. -/
  | ended (t : Task) (outcome : Outcome t.Value)

namespace Fact

def activity : Fact → Activity
  | patched .. => .configureApp
  | configured .. => .configureInstallation
  | began t .. | ended t _ => .task t

def calls (t : Task) : Fact → Bool
  | began _ _ call => call.task = t
  | _ => false

def isCall : Fact → Bool
  | began .. => true
  | _ => false

def isEnd : Fact → Bool
  | ended .. => true
  | _ => false

/-- The application or the installation was configured, or at least tried to. -/
def isConfiguration : Fact → Bool
  | patched .. | configured .. => true
  | _ => false

def succeeds : Fact → Bool
  | patched _ accepted | configured _ accepted => accepted
  | ended _ (.returned _) => true
  | _ => false

/-- The patch that was tried, and whether it was accepted. -/
def patch? : Fact → Option (ConfigValues × Bool)
  | patched p accepted => some (p, accepted)
  | _ => none

/-- The settings that were tried, and whether they were accepted. -/
def settings? : Fact → Option (InstallationConfig × Bool)
  | configured c accepted => some (c, accepted)
  | _ => none

end Fact

/-- What an action came to, told from its answer and the job that it left behind. -/
def Action.fact : Action → Answer S × Option (Job S) → Option Fact
  | .patchValues p, (.values _, _) => some (.patched p true)
  | .patchValues p, (.refused e, _) => if e.isRefusal then none else some (.patched p false)
  | .configureInstallation c, (.settings _, _) => some (.configured c true)
  | .configureInstallation c, (.refused e, _) =>
    if e.isRefusal then none else some (.configured c false)
  | .begin t ignore, (_, some job) => some (.began t ignore job.call)
  | _, _ => none

/-- An action that is refused is no fact. -/
theorem Action.fact_refused (a : Action) {e : ActionError S} (h : e.isRefusal = true) :
    a.fact (.refused e, none) = none := by
  cases a with
  | patchValues patch => exact if_pos h
  | configureInstallation settings => exact if_pos h
  | begin t ignore => rfl

section Sessions

variable [DecidableEq S] [ToString S]

def Session.fact (w : Workflow S) (s : Session S) : Event → Option Fact
  | .act a => a.fact ((w.act a).run s.site).1
  | .note _ | .tick _ => none
  | .complete outcome => s.job.map fun job ↦ .ended job.call.task (outcome job.call)

/-- What a list of events comes to. -/
def Session.history (w : Workflow S) : Session S → List Event → List Fact
  | _, [] => []
  | s, e :: more => (s.fact w e).toList ++ history w (s.next w e).2 more

/-- What is answered to the events of a list, each with the session after it. -/
def Session.transcript (w : Workflow S) :
    Session S → List Event → List (Option (Answer S) × Session S)
  | _, [] => []
  | s, e :: more => s.next w e :: transcript w (s.next w e).2 more

end Sessions

/-! ### Outlines -/

/-- What a history tells of a session. -/
structure Outline (S : Type) where
  current : S
  /-- The call in flight. -/
  call : Option Call
  values : ConfigValues
  settings : InstallationConfig

/-- The outline of a session. -/
def Session.outline (s : Session S) : Outline S :=
  ⟨s.site.engine.current, s.job.map (·.call), s.site.payload.values, s.site.payload.settings⟩

namespace Workflow

variable [DecidableEq S]

/-- A workflow that waits can enter a state, over a bypass if there is one. -/
structure Enters (w : Workflow S) (o : Outline S) (a : Activity) (through : Option S)
    (stages : Stages S) : Prop where
  has : (a, stages) ∈ w.plan.activities w.options
  idle : o.call = none
  rests : o.current ∈ w.plan.resting w.options
  leads : w.table.Leads o.current through stages.running

/-- How a fact changes the outline of a session. -/
inductive Step (w : Workflow S) (o : Outline S) : Fact → Outline S → Prop where
  | patched {patch : ConfigValues} {stages : Stages S}
      (enters : w.Enters o .configureApp none stages)
      (valid : w.schema.validate (AppConfigSchema.merge o.values patch) = .ok ()) :
      Step w o (.patched patch true)
        { o with current := stages.succeeded, values := AppConfigSchema.merge o.values patch }
  | patchRejected {patch : ConfigValues} {stages : Stages S} {e : ValidationError}
      (enters : w.Enters o .configureApp none stages)
      (invalid : w.schema.validate (AppConfigSchema.merge o.values patch) = .error e) :
      Step w o (.patched patch false) { o with current := stages.failed }
  | configured {settings : InstallationConfig} {stages : Stages S}
      (enters : w.Enters o .configureInstallation none stages)
      (valid : settings.validate = .ok ()) :
      Step w o (.configured settings true)
        { o with current := stages.succeeded, settings := settings }
  | configurationRejected {settings : InstallationConfig} {stages : Stages S} {e : ValidationError}
      (enters : w.Enters o .configureInstallation none stages)
      (invalid : settings.validate = .error e) :
      Step w o (.configured settings false) { o with current := stages.failed }
  | began {t : Task} {ignore : Bool} {through : Option S} {stages : Stages S}
      (enters : w.Enters o (.task t) through stages)
      (passes : w.bypassFrom ignore t o.current = .ok through) :
      Step w o (.began t ignore (w.callFor o.values o.settings t))
        { o with current := stages.running, call := some (w.callFor o.values o.settings t) }
  | ended {call : Call} {stages : Stages S} (outcome : Outcome call.task.Value)
      (has : (.task call.task, stages) ∈ w.plan.activities w.options)
      (calling : o.call = some call) (running : o.current = stages.running) :
      Step w o (.ended call.task outcome)
        { o with current := w.outcomeState stages call.task outcome, call := none }

/-- A history that leads from one outline to another. -/
inductive Trace (w : Workflow S) (o : Outline S) : List Fact → Outline S → Prop where
  | nil : Trace w o [] o
  | snoc {h : List Fact} {f : Fact} {o' o'' : Outline S} (trace : Trace w o h o')
      (step : w.Step o' f o'') : Trace w o (h ++ [f]) o''

theorem Trace.cons {w : Workflow S} {o o' o'' : Outline S} {f : Fact} {h : List Fact}
    (step : w.Step o f o') (trace : w.Trace o' h o'') : w.Trace o (f :: h) o'' := by
  induction trace with
  | nil => exact .snoc .nil step
  | snoc _ last ih => exact .snoc ih last

/-- The state in which a fact leaves a workflow. -/
def stateAfter (w : Workflow S) (stages : Stages S) : Fact → S
  | .patched _ accepted | .configured _ accepted =>
    if accepted then stages.succeeded else stages.failed
  | .began .. => stages.running
  | .ended t outcome => w.outcomeState stages t outcome

end Workflow
end Rollout
