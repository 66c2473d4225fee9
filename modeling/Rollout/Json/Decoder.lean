import Rollout.Dict
import Rollout.Json.Tree

/-!
# Decoders

A decoder makes a value of some type from a tree.  It meets the tree in reading order, so that of
several faults the first one in the text is reported.  Its number is the nesting that is still
allowed: the array or object that would use it up is a fault.
-/

namespace Rollout.Json

/-- A way to make an `α` from a tree. -/
abbrev Decoder (α : Type) := Nat → Tree → Except Fault α

/-- The nesting that a document may not reach. -/
def nestingLimit : Nat := 128

/-- Decode the text of one document; nothing may follow it. -/
def Decoder.fromText (d : Decoder α) (text : String) : Except Fault α := do
  let doc := Document.ofString text
  let a ← d nestingLimit doc.root
  if doc.trailing then .error .malformed else .ok a

/-- Decode the document at the start of a byte stream, whatever follows it. -/
def Decoder.fromBytes (d : Decoder α) (bytes : List UInt8) : Except Fault α :=
  d nestingLimit (Document.ofSymbols (Text.Symbol.ofBytes bytes)).root

def Decoder.fromJson (d : Decoder α) (v : Json) : Except Fault α := d nestingLimit (Tree.ofJson v)

namespace Decoder

def map (f : α → β) (d : Decoder α) : Decoder β := fun depth t ↦ (d depth t).map f

/-- Accept those texts for which `f` has a value. -/
def text? (f : String → Option α) : Decoder α := fun _ t ↦
  match t with
  | .string s => do
    match f (← s.value) with
    | some a => .ok a
    | none => .error .data
  | t => .error t.mismatch

def text : Decoder String := text? some

def flag : Decoder Bool := fun _ t ↦
  match t with
  | .bool b => .ok b
  | t => .error t.mismatch

/-- A whole number from zero to `greatest`. -/
def natUpTo (greatest : Nat) : Decoder Nat := fun _ t ↦
  match t with
  | .number n => do
    match ← n.value with
    | .int i => if 0 ≤ i && i ≤ greatest then .ok i.toNat else .error .data
    | .double _ => .error .data
  | t => .error t.mismatch

/-- A null for none, anything else as `d` decodes it. -/
def optional (d : Decoder α) : Decoder (Option α) := fun depth t ↦
  match t with
  | .null => .ok none
  | t => (d depth t).map some

/-- Enter an array or object. -/
def enter (depth : Nat) : Except Fault Nat :=
  if depth ≤ 1 then .error .malformed else .ok (depth - 1)

/-- The end of an array or object. -/
def ended : Ending → Except Fault Unit
  | .closed => .ok ()
  | .fault f _ => .error f

def list (d : Decoder α) : Decoder (List α) := fun depth t ↦
  match t with
  | .array items ending _ => do
    let depth ← enter depth
    let items ← items.mapM (d depth)
    ended ending
    .ok items
  | t => .error t.mismatch

/-- One of a list of names: a string, or an object whose only member has that key and holds
null. -/
def oneOf (names : List (String × α)) : Decoder α := fun depth t ↦
  let find (name : String) : Except Fault α :=
    match names.find? (·.1 == name) with
    | some (_, a) => .ok a
    | none => .error .data
  match t with
  | .string s => do find (← s.value)
  | .object members ending _ => do
    let _ ← enter depth
    match members, ending with
    | [], .closed => .error .malformed
    | [], .fault _ asKey => .error asKey
    | (key, v) :: more, ending =>
      let a ← find (← key.value)
      match v with
      | .null =>
        if more.isEmpty then do
          ended ending
          .ok a
        else .error .malformed
      | v => .error v.mismatch
  | .missing f => .error f
  | _ => .error .malformed

end Decoder

/-- One field of a record: its names, the first of them for writing, whether it must be there,
and how its value changes the record. -/
structure Field (α : Type) where
  names : List String
  required : Bool
  read : Decoder (α → α)

namespace Field

def needed (name : String) (d : Decoder β) (set : β → α → α) : Field α := ⟨[name], true, d.map set⟩

def defaulted (names : List String) (d : Decoder β) (set : β → α → α) : Field α :=
  ⟨names, false, d.map set⟩

end Field

namespace Decoder

/-- Fill a record from the items of an array, in the order of the fields. -/
def fillInOrder (depth : Nat) (ending : Ending) : List (Field α) → List Tree → α → Except Fault α
  | [], [], a => do
    ended ending
    .ok a
  | [], _ :: _, _ => .error .malformed
  | f :: fs, [], a => do
    ended ending
    if f.required then .error .data else fillInOrder depth ending fs [] a
  | f :: fs, t :: ts, a => do
    let set ← f.read depth t
    fillInOrder depth ending fs ts (set a)

/-- Fill a record from the members of an object.  `seen` holds the numbers of the fields that
have been filled. -/
def fillByName (depth : Nat) (fields : List (Field α)) (ending : Ending) :
    List (Lexeme String × Tree) → List Nat → α → Except Fault α
  | [], seen, a => do
    ended ending
    if fields.zipIdx.any fun f ↦ f.1.required && !seen.contains f.2 then .error .data else .ok a
  | (key, v) :: more, seen, a => do
    let name ← key.value
    match fields.zipIdx.find? (·.1.names.contains name) with
    | some (f, i) =>
      if seen.contains i then .error .data
      else do
        let set ← f.read depth v
        fillByName depth fields ending more (i :: seen) (set a)
    | none =>
      match v.skip with
      | some f => .error f
      | none => fillByName depth fields ending more seen a

/-- A record: an object with its fields, or an array of them in order.  `blank` holds the
defaults. -/
def record (blank : α) (fields : List (Field α)) : Decoder α := fun depth t ↦
  match t with
  | .array items ending _ => do fillInOrder (← enter depth) ending fields items blank
  | .object members ending _ => do fillByName (← enter depth) fields ending members [] blank
  | t => .error t.mismatch

end Decoder

mutual

def decode : Tree → Nat → Except Fault Json
  | .null, _ => .ok .null
  | .bool b, _ => .ok (.bool b)
  | .number n, _ => n.value.map .number
  | .string s, _ => s.value.map .string
  | .array items ending _, depth => do
    let depth ← Decoder.enter depth
    let items ← decodeItems items depth
    Decoder.ended ending
    .ok (.array items)
  | .object members ending _, depth => do
    let depth ← Decoder.enter depth
    let members ← decodeMembers members depth
    Decoder.ended ending
    .ok (.object (Dict.ofList members).entries)
  | .brokenWord f, _ => .error f
  | .missing f, _ => .error f

def decodeItems : List Tree → Nat → Except Fault (List Json)
  | [], _ => .ok []
  | t :: more, depth => do
    let a ← decode t depth
    let rest ← decodeItems more depth
    .ok (a :: rest)

def decodeMembers : List (Lexeme String × Tree) → Nat → Except Fault (List (String × Json))
  | [], _ => .ok []
  | (key, t) :: more, depth => do
    let name ← key.value
    let v ← decode t depth
    let rest ← decodeMembers more depth
    .ok ((name, v) :: rest)

end

def Decoder.value : Decoder Json := fun depth t ↦ decode t depth

/-- The members of an object; of those with one key the last. -/
def Decoder.dict : Decoder (Dict Json) := fun depth t ↦
  match t with
  | .object members ending _ => do
    let members ← decodeMembers members (← Decoder.enter depth)
    Decoder.ended ending
    .ok (Dict.ofList members)
  | t => .error t.mismatch

def parse (text : String) : Except Fault Json := Decoder.value.fromText text

end Rollout.Json
