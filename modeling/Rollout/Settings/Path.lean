import Rollout.Number.Reading
import Rollout.Settings.Raw
import Rollout.Text.Front

/-!
# Paths of settings

The names at the top of a source are paths: a name, then names after dots and indices in brackets,
as in `app_config.items[0].name`.  A name that is no path stands for itself.
-/

namespace Rollout

open Text (readChar?)

/-- Where a setting stands. -/
inductive SettingPath where
  | name (key : String)
  | member (parent : SettingPath) (key : String)
  | item (parent : SettingPath) (index : Int)
  deriving DecidableEq, Repr

namespace SettingPath

/-! ### Reading -/

def isNameChar (c : Char) : Bool := c.isAlphanum || c = ' ' || c = '_' || c = '-'

def readName? (s : List Char) : Option (String × List Char) :=
  match s.takeWhile isNameChar with
  | [] => none
  | cs => some (String.ofList cs, s.dropWhile isNameChar)

def skipSpaces (s : List Char) : List Char := s.dropWhile fun c ↦ c = ' ' || c = '\t'

def readIndex? (s : List Char) : Option (Int × List Char) := do
  let (negative, s) := match skipSpaces s with
    | '-' :: s => (true, s)
    | s => (false, s)
  let (ds, s) := spanDigits 10 s
  let n := signed negative (numeral 10 ds)
  if ds.isEmpty || n < -0x8000000000000000 || 0x8000000000000000 ≤ n then none
  else some (n, ← readChar? ']' (skipSpaces s))

/-- Read what follows the path `p`. -/
def readSteps? (p : SettingPath) (s : List Char) : Option SettingPath := do
  match s with
  | [] => some p
  | '.' :: s' =>
    let (key, rest) ← readName? s'
    if rest.length ≤ s'.length then readSteps? (.member p key) rest else none
  | '[' :: s' =>
    let (i, rest) ← readIndex? s'
    if rest.length ≤ s'.length then readSteps? (.item p i) rest else none
  | _ => none
termination_by s.length

def parse? (text : String) : Option SettingPath := do
  let (key, rest) ← readName? text.toList
  readSteps? (.name key) rest

/-- The path that a text stands for. -/
def of (text : String) : SettingPath := (parse? text).getD (.name text)

/-! ### Laying over -/

/-- Change what stands at a path.  Tables and lists on the way are made where they are missing. -/
def update (change : Raw → Raw) : SettingPath → Raw → Raw
  | name key, root => root.alter key fun old ↦ change (old.getD .nothing)
  | member p key, root => p.update (·.alter key fun old ↦ change (old.getD .nothing)) root
  | item p i, root => p.update (·.alterItem i change) root

/-- Lay a value over what stands at a path. -/
def put (v : Raw) : SettingPath → Raw → Raw
  | name key, root => root.put key v
  | member p key, root => p.update (·.put key v) root
  | item p i, root => p.update (·.alterItem i fun _ ↦ v) root

end SettingPath

namespace Raw

/-- Lay the values of a source, each at its path, over a value. -/
def layOver (source : List (String × Raw)) (root : Raw) : Raw :=
  source.foldl (fun root e ↦ (SettingPath.of e.1).put e.2 root) root

end Raw
end Rollout
