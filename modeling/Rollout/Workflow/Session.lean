import Rollout.Workflow.Action

/-!
# Sessions

A session is a workflow in use: what it keeps, and the job that is in flight.  It moves by events:
actions of clients, reports of the collaborator that carries out the job, the end of the job, and
the clock.
In a session one event is over before the next one comes; `Proc` and `Pool` tell what may happen
when they overlap.
-/

namespace Rollout

/-- A workflow in use. -/
structure Session (S : Type) where
  site : Site S
  job : Option (Job S) := none

/-- What happens in a session. -/
inductive Event where
  | act (a : Action)
  | note (p : Progress)
  /-- Time passes. -/
  | tick (now : Timestamp)
  /-- The job in flight ends with the outcome that its call has here. -/
  | complete (outcome : (c : Call) → Outcome c.task.Value)

namespace Session

variable {S : Type} [DecidableEq S]

def start (w : Workflow S) (values : Option ConfigValues) (now : Timestamp) : Session S :=
  { site := w.start values now }

def does {α : Type} (s : Session S) (p : Proc (Site S) α) : α × Session S :=
  let (a, site) := p.run s.site
  (a, { s with site := site })

/-- Carry out a computation that may leave a job behind. -/
def take {α : Type} (s : Session S) (p : Proc (Site S) (α × Option (Job S))) : α × Session S :=
  let ((a, job), s) := s.does p
  (a, { s with job := job.or s.job })

/-- The collaborator reports. -/
def note (s : Session S) (p : Progress) : Session S :=
  match s.job with
  | some job => (s.does (Workflow.note job.call.task p)).2
  | none => s

variable [ToString S]

/-- The job in flight ends. -/
def complete (w : Workflow S) (s : Session S) (outcome : (c : Call) → Outcome c.task.Value) :
    Session S :=
  match s.job with
  | some job =>
    { (s.does (w.finish job.running job.call.task (outcome job.call))).2 with job := none }
  | none => s

/-- The session after an event, and the answer to an action. -/
def next (w : Workflow S) (s : Session S) : Event → Option (Answer S) × Session S
  | .act a =>
    let (answer, s) := s.take (w.act a)
    (some answer, s)
  | .note p => (none, s.note p)
  | .tick now => (none, { s with site.now := now })
  | .complete outcome => (none, s.complete w outcome)

def after (w : Workflow S) (s : Session S) (events : List Event) : Session S :=
  events.foldl (fun s e ↦ (s.next w e).2) s

end Session
end Rollout
