import Rollout.Dict
import Rollout.Toml.Value

/-!
# Tables in the making

A document defines its tables piece by piece: by headers, by keys with dots, and as items of an
array of tables.  How a table came to be decides what may be added to it later.  Every refusal is
`none`.
-/

namespace Rollout.Toml

/-- How a table came to be. -/
inductive Origin where
  /-- By a header of its own. -/
  | declared
  /-- By the header of a table inside it. -/
  | implied
  /-- By a key with dots. -/
  | dotted
  deriving DecidableEq, Repr

/-- What a key of a table in the making stands for. -/
inductive Node where
  | value (v : Toml)
  | table (origin : Origin) (members : List (String × Node))
  /-- An array of tables, each under a header of its own, the latest first. -/
  | tables (items : List (List (String × Node)))

abbrev Members := List (String × Node)

namespace Members

/-- Change the table under a path of headers.  A table that is not there yet is implied; of an
array of tables the last one is meant. -/
def within? (change : Members → Option Members) : List String → Members → Option Members
  | [], ms => change ms
  | key :: path, ms =>
    match lookUp? key ms with
    | none => do some (insertEntry key (.table .implied (← within? change path [])) ms)
    | some (.table o inner) => do some (insertEntry key (.table o (← within? change path inner)) ms)
    | some (.tables (last :: earlier)) => do
      some (insertEntry key (.tables ((← within? change path last) :: earlier)) ms)
    | some _ => none

/-- Declare the table under a key, which may at most be implied so far. -/
def declare? (key : String) (ms : Members) : Option Members :=
  match lookUp? key ms with
  | none => some (insertEntry key (.table .declared []) ms)
  | some (.table .implied inner) => some (insertEntry key (.table .declared inner) ms)
  | some _ => none

def append? (key : String) (ms : Members) : Option Members :=
  match lookUp? key ms with
  | none => some (insertEntry key (.tables [[]]) ms)
  | some (.tables items) => some (insertEntry key (.tables ([] :: items)) ms)
  | some _ => none

/-- Put a value under a key with dots, in a table that came to be by `origin`.  The tables that
the key goes through may not be declared; the last of them has to be a dotted one. -/
def put? (v : Toml) (origin : Origin) (nested : Bool) : List String → Members → Option Members
  | [], _ => none
  | [key], ms =>
    if decide (origin = .dotted) = nested && (lookUp? key ms).isNone then
      some (insertEntry key (.value v) ms)
    else none
  | key :: path, ms =>
    match lookUp? key ms with
    | none => do some (insertEntry key (.table .dotted (← put? v .dotted true path [])) ms)
    | some (.table .declared _) => none
    | some (.table o inner) => do
      some (insertEntry key (.table o (← put? v o true path inner)) ms)
    | some (.tables (last :: earlier)) => do
      some (insertEntry key (.tables ((← put? v .declared true path last) :: earlier)) ms)
    | some _ => none

end Members

mutual

def Node.toToml : Node → Toml
  | .value v => v
  | .table _ members => .table (membersToToml members)
  | .tables items => .array (tablesToToml items).reverse

def membersToToml : List (String × Node) → List (String × Toml)
  | [] => []
  | m :: more => (m.1, m.2.toToml) :: membersToToml more

def tablesToToml : List (List (String × Node)) → List Toml
  | [] => []
  | ms :: more => .table (membersToToml ms) :: tablesToToml more

end

end Rollout.Toml
