import Rollout.Json.Value
import Rollout.Dict
import Rollout.Toml.Value

/-!
# Raw settings

A source gives settings as raw values, which get their types only when all sources have been laid
over each other.  Laying a table over another merges them key by key; anything else replaces what
was there.

The keys of a table are gone through as they are listed.  Readers list them in ascending order, but
nothing promises this order: where two keys name one setting, either may come last and win.  What
may come of a table is what comes of the tables that are the same but for the order of their keys
(`Reordered`).

* `get?_alter`: what a change under one key changes under the others.
-/

namespace Rollout

/-- A value as a source of settings gives it. -/
inductive Raw where
  /-- A value that is there and says nothing. -/
  | nothing
  | bool (b : Bool)
  | int (n : Int)
  | double (x : Binary64)
  | text (s : String)
  | list (items : List Raw)
  | table (members : List (String × Raw))
  deriving Repr, Inhabited

namespace Raw

/-! ### Laying over -/

/-- Settings are named in any case: the text in lower case, as far as their names can tell.  The
Kelvin sign is a capital K. -/
def folded (key : String) : String :=
  key.map fun c ↦ if c = '\u212a' then 'k' else c.toLower

/-- The members of a table; of anything else, none. -/
def members : Raw → List (String × Raw)
  | table members => members
  | _ => []

/-- The items of a list; of anything else, none. -/
def items : Raw → List Raw
  | list items => items
  | _ => []

def get? (key : String) (root : Raw) : Option Raw := lookUp? key root.members

/-- Change what stands under a key.  Anything that is no table becomes one. -/
def alter (key : String) (change : Option Raw → Raw) (root : Raw) : Raw :=
  table (insertEntry key (change (root.get? key)) root.members)

/-- Change the item at an index, counted from the end if it is negative.  Anything that is no list
becomes one, and the list grows up to the index; before its start there is nothing to change. -/
def alterItem (index : Int) (change : Raw → Raw) (root : Raw) : Raw :=
  let items := root.items
  let i : Int := if index < 0 then items.length + index else index
  if i < 0 then list items
  else
    let grown := items ++ List.replicate (i.toNat + 1 - items.length) nothing
    list (grown.modify i.toNat change)

mutual

/-- Lay a value over what stands under a key: a table is merged into it member by member. -/
def put (key : String) (root : Raw) : Raw → Raw
  | table members =>
    root.alter (folded key) fun old ↦ putMembers (old.getD (table [])) members
  | v => root.alter (folded key) fun _ ↦ v

def putMembers (root : Raw) : List (String × Raw) → Raw
  | [] => root
  | m :: more => putMembers (put m.1 root m.2) more

end

/-- The same members, with the keys in another order, also in the tables among them.  Lists stay as
they are: nothing is merged into what they hold. -/
inductive Reordered : List (String × Raw) → List (String × Raw) → Prop where
  | nil : Reordered [] []
  | keep {ms ms' : List (String × Raw)} (m : String × Raw) :
      Reordered ms ms' → Reordered (m :: ms) (m :: ms')
  | inside {inner inner' ms ms' : List (String × Raw)} (key : String) :
      Reordered inner inner' → Reordered ms ms' →
      Reordered ((key, table inner) :: ms) ((key, table inner') :: ms')
  | swap (m m' : String × Raw) (ms : List (String × Raw)) :
      Reordered (m :: m' :: ms) (m' :: m :: ms)
  | trans {ms ms' ms'' : List (String × Raw)} :
      Reordered ms ms' → Reordered ms' ms'' → Reordered ms ms''

/-- A change under a key is found there and nowhere else. -/
@[simp]
theorem get?_alter (key k : String) (change : Option Raw → Raw) (root : Raw) :
    (root.alter key change).get? k =
      if key = k then some (change (root.get? key)) else root.get? k :=
  Dict.lookUp?_insertEntry key k _ _

/-! ### Raw values of documents -/

mutual

/-- A JSON value.  Whole numbers that need more than 64 bits with a sign are doubles. -/
def ofJson : Json → Raw
  | .null => nothing
  | .bool b => bool b
  | .number (.int n) => if n < 0x8000000000000000 then int n else double (.ofNat n.toNat)
  | .number (.double x) => double x
  | .string s => text s
  | .array items => list (ofJsonItems items)
  | .object members => table (ofJsonMembers members)

def ofJsonItems : List Json → List Raw
  | [] => []
  | v :: more => ofJson v :: ofJsonItems more

def ofJsonMembers : List (String × Json) → List (String × Raw)
  | [] => []
  | m :: more => insertEntry m.1 (ofJson m.2) (ofJsonMembers more)

end

mutual

/-- A TOML value.  Dates and times are texts. -/
def ofToml : Toml → Raw
  | .string s => text s
  | .int n => int n
  | .float x => double x
  | .bool b => bool b
  | .moment m => text m.text
  | .array items => list (ofTomlItems items)
  | .table members => table (ofTomlMembers members)

def ofTomlItems : List Toml → List Raw
  | [] => []
  | v :: more => ofToml v :: ofTomlItems more

def ofTomlMembers : List (String × Toml) → List (String × Raw)
  | [] => []
  | m :: more => insertEntry m.1 (ofToml m.2) (ofTomlMembers more)

end

end Raw
end Rollout
