import Rollout.Operation
import Rollout.Preflight
import Rollout.Workflow.Target

/-!
# Why an action is not carried out

The answer of a workflow to an action that it does not start, or that fails at once, and the answer
to the client that goes with it.
-/

namespace Rollout

/-- Why an action was not carried out. -/
inductive ActionError (S : Type) where
  | operation (e : OperationError S)
  | bypassNotAllowed (scope : PreflightScope)
  | unsupported (action : String) (mode : Mode) (target : Target)
  deriving Repr

namespace ActionError

variable {S : Type}

def message [ToString S] : ActionError S → String
  | operation e => e.message
  | bypassNotAllowed scope => scope.name ++ " preflight checks failed and cannot be ignored"
  | unsupported action mode target =>
    action ++ " is not supported for " ++ mode.name ++ " on " ++ target.name

/-- The workflow was not in a state for the action. -/
def isConflict : ActionError S → Bool
  | operation e => e.isBusy || e.isInvalidTransition
  | _ => false

def rejection? : ActionError S → Option ValidationError
  | operation e => e.rejection?
  | _ => none

/-- The HTTP status of the answer. -/
def statusCode (e : ActionError S) : Nat :=
  if e.isConflict then 409
  else if e.rejection?.isSome then 400
  else match e with
    | bypassNotAllowed _ => 400
    | unsupported .. => 404
    | operation _ => 500

/-- The body of the answer: the message, and the rejected fields if there are any. -/
def body [ToString S] (e : ActionError S) : Json :=
  let fields := match e.rejection? with
    | some r => r.errors
    | none => []
  .object <| ("error", .string e.message) ::
    if fields.isEmpty then [] else [("fields", .array (fields.map FieldError.toJson))]

end ActionError
end Rollout
