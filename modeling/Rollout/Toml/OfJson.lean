import Rollout.Json.Value
import Rollout.Toml.Scalar

/-!
# JSON values in a TOML document

TOML has no null, and its whole numbers fit 64 bits with a sign; a value that holds anything else
cannot be written.
-/

namespace Rollout.Toml

mutual

def ofJson? : Json → Option Toml
  | .null => none
  | .bool b => some (.bool b)
  | .number (.int n) => if fits n then some (.int n) else none
  | .number (.double x) => some (.float x)
  | .string s => some (.string s)
  | .array items => (itemsOfJson? items).map .array
  | .object members => (membersOfJson? members).map .table

def itemsOfJson? : List Json → Option (List Toml)
  | [] => some []
  | v :: more => do
    let v ← ofJson? v
    let more ← itemsOfJson? more
    some (v :: more)

def membersOfJson? : List (String × Json) → Option (List (String × Toml))
  | [] => some []
  | m :: more => do
    let v ← ofJson? m.2
    let more ← membersOfJson? more
    some ((m.1, v) :: more)

end

end Rollout.Toml
