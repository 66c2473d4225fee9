import Rollout.Json.Decoder
import Rollout.Settings.Raw

/-!
# Forms of settings

A form says how settings of one type are written as JSON, read from JSON, and read from raw values.
The last is lenient: a text may be given as a number or a truth value, and the other way round.
The form of a record is made from the forms of its fields.
-/

namespace Rollout

namespace Raw

/-! ### Lenient readings -/

/-- Numbers that are read as texts are in positional notation, with no more digits than needed. -/
def numberLayout : Layout := ⟨.away, none, [], []⟩

def toText? : Raw → Option String
  | text s => some s
  | bool b => some (toString b)
  | int n => some (toString n)
  | double x => some (String.ofList (numberLayout.text x))
  | nothing | list _ | table _ => none

def flagOfWord? (s : String) : Option Bool :=
  let w := folded s
  if ["1", "true", "on", "yes"].contains w then some true
  else if ["0", "false", "off", "no"].contains w then some false
  else none

/-- The value as a truth value: numbers other than zero are true. -/
def toFlag? : Raw → Option Bool
  | bool b => some b
  | int n => some (n ≠ 0)
  | double x => some (!x.isZero)
  | text s => flagOfWord? s
  | nothing | list _ | table _ => none

def toList? (read : Raw → Option α) : Raw → Option (List α)
  | list items => items.mapM read
  | _ => none

/-- The value, unless it is there and says nothing. -/
def toOption? (read : Raw → Option α) : Raw → Option (Option α)
  | nothing => some none
  | v => (read v).map some

/-- The value as one of a list of names, in any case.  A table with one member stands for its
key. -/
def toOneOf? (names : List (String × α)) (v : Raw) : Option α := do
  let name ← match v with
    | text s => some s
    | table [(key, _)] => some key
    | _ => none
  (names.find? (·.1 == folded name)).map (·.2)

mutual

/-- The value as JSON; a number that JSON cannot write is null. -/
def toJson : Raw → Json
  | nothing => .null
  | bool b => .bool b
  | int n => .int n
  | double x => if x.isFinite then .number (.double x) else .null
  | text s => .string s
  | list items => .array (itemsToJson items)
  | table members => .object (membersToJson members)

def itemsToJson : List Raw → List Json
  | [] => []
  | v :: more => toJson v :: itemsToJson more

def membersToJson : List (String × Raw) → List (String × Json)
  | [] => []
  | m :: more => (m.1, toJson m.2) :: membersToJson more

end

end Raw

/-- How a setting is written and read. -/
structure Form (α : Type) where
  toJson : α → Json
  decoder : Json.Decoder α
  ofRaw? : Raw → Option α

namespace Form

def text : Form String := ⟨.string, .text, Raw.toText?⟩

def flag : Form Bool := ⟨.bool, .flag, Raw.toFlag?⟩

def oneOf (name : α → String) (names : List (String × α)) : Form α :=
  ⟨fun a ↦ .string (name a), .oneOf names, Raw.toOneOf? names⟩

def list (f : Form α) : Form (List α) :=
  ⟨fun l ↦ .array (l.map f.toJson), .list f.decoder, Raw.toList? f.ofRaw?⟩

def optional (f : Form α) : Form (Option α) :=
  ⟨.ofOption f.toJson, .optional f.decoder, Raw.toOption? f.ofRaw?⟩

def value : Form Json := ⟨id, .value, fun v ↦ some v.toJson⟩

end Form

/-- A field of a record of settings: how it is written, and how its value changes the record. -/
structure Form.Field (α : Type) where
  name : String
  required : Bool
  write : α → Json
  decode : Json.Decoder (α → α)
  read : Raw → Option (α → α)

namespace Form

def Field.needed (name : String) (f : Form β) (get : α → β) (set : β → α → α) : Field α where
  name
  required := true
  write a := f.toJson (get a)
  decode := f.decoder.map set
  read v := (f.ofRaw? v).map set

def Field.defaulted (name : String) (f : Form β) (get : α → β) (set : β → α → α) : Field α :=
  { Field.needed name f get set with required := false }

def fillByName (root : Raw) : List (Field α) → α → Option α
  | [], a => some a
  | f :: fields, a =>
    match root.get? f.name with
    | some v => do fillByName root fields ((← f.read v) a)
    | none => if f.required then none else fillByName root fields a

/-- Fill a record from the items of a list, in the order of the fields. -/
def fillInOrder : List (Field α) → List Raw → α → Option α
  | [], _, a => some a
  | f :: fields, [], a => if f.required then none else fillInOrder fields [] a
  | f :: fields, v :: more, a => do fillInOrder fields more ((← f.read v) a)

/-- A record with these fields.  `blank` holds the defaults. -/
def record (blank : α) (fields : List (Field α)) : Form α where
  toJson a := .object (fields.map fun f ↦ (f.name, f.write a))
  decoder := .record blank (fields.map fun f ↦ ⟨[f.name], f.required, f.decode⟩)
  ofRaw?
    | .table members => fillByName (.table members) fields blank
    | .list items => fillInOrder fields items blank
    | _ => none

end Form
end Rollout
