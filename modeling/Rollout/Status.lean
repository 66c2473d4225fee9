import Rollout.Json.Decoder
import Rollout.Timestamp

/-!
# Status records

What is known about the progress of something: a state, a description, and when it was last
updated.  The zero record stands for something that has not been begun.
-/

namespace Rollout

/-- The progress of an operation or of a component. -/
inductive Status where
  | pending
  | running
  | succeeded
  | failed
  deriving DecidableEq, Repr, Inhabited

namespace Status

def name : Status → String
  | pending => "Pending"
  | running => "Running"
  | succeeded => "Succeeded"
  | failed => "Failed"

def all : List Status := [pending, running, succeeded, failed]

def ofName? (s : String) : Option Status := all.find? (·.name == s)

def isTerminal : Status → Bool
  | succeeded | failed => true
  | pending | running => false

def decoder : Json.Decoder Status := .oneOf (all.map fun s ↦ (s.name, s))

end Status

/-- A status with its description and time. -/
structure StatusRecord where
  state : Status := .pending
  description : String := ""
  lastUpdated : Timestamp := Timestamp.epoch
  deriving DecidableEq, Repr, Inhabited

namespace StatusRecord

def zero : StatusRecord := {}

def toJson (r : StatusRecord) : Json :=
  .object [("state", .string r.state.name), ("description", .string r.description),
    ("lastUpdated", .string r.lastUpdated.text)]

def decoder : Json.Decoder StatusRecord :=
  .record zero
    [.needed "state" Status.decoder fun v r ↦ { r with state := v },
      .needed "description" .text fun v r ↦ { r with description := v },
      .needed "lastUpdated" (.text? Timestamp.parse?) fun v r ↦ { r with lastUpdated := v }]

end StatusRecord

structure ComponentStatus where
  name : String := ""
  status : StatusRecord := {}
  deriving DecidableEq, Repr, Inhabited

namespace ComponentStatus

def toJson (c : ComponentStatus) : Json :=
  .object [("name", .string c.name), ("status", c.status.toJson)]

def decoder : Json.Decoder ComponentStatus :=
  .record {}
    [.needed "name" .text fun v c ↦ { c with name := v },
      .needed "status" StatusRecord.decoder fun v c ↦ { c with status := v }]

end ComponentStatus
end Rollout
