import Rollout.Json.Value

/-!
# Operation counters

How many operations were started, how they came out, and how many were refused before they
started.  The counters are meant as words of 64 bits, which do not run out while fewer than 2^64
operations are counted; under this bound they are the numbers they are here.
-/

namespace Rollout

/-- What is counted. -/
inductive Tally where
  | started
  | succeeded
  | failed
  | panicked
  | rejected
  deriving DecidableEq, Repr

structure Counters where
  started : Nat := 0
  succeeded : Nat := 0
  failed : Nat := 0
  panicked : Nat := 0
  rejected : Nat := 0
  deriving DecidableEq, Repr, Inhabited

namespace Counters

def record (c : Counters) : Tally → Counters
  | .started => { c with started := c.started + 1 }
  | .succeeded => { c with succeeded := c.succeeded + 1 }
  | .failed => { c with failed := c.failed + 1 }
  | .panicked => { c with panicked := c.panicked + 1 }
  | .rejected => { c with rejected := c.rejected + 1 }

def toJson (c : Counters) : Json :=
  .object [("started", .int c.started), ("succeeded", .int c.succeeded), ("failed", .int c.failed),
    ("panicked", .int c.panicked), ("rejected", .int c.rejected)]

end Counters
end Rollout
