import Rollout.Json.Token

/-!
# JSON documents as far as they can be read

Tokens are given a structure by a machine with a stack, one step per token.  The result is always
a tree: a fault is a leaf, at the place where reading ends.  What is made of the tree is decided
later, by a decoder that walks it in reading order and takes the first fault that it meets.
-/

namespace Rollout.Json

/-- How an array or an object ends: closed, or by a fault right after its opening or after one of
its items.  `asKey` is the fault for a reader that would take any value for a key there. -/
inductive Ending where
  | closed
  | fault (f : Fault) (asKey : Fault)
  deriving DecidableEq, Repr, Inhabited

def Ending.fault? : Ending → Option Fault
  | closed => none
  | fault f _ => some f

/-- A value of a document.  Arrays and objects record what is wrong with them for a reader that
passes over them. -/
inductive Tree where
  | null
  | bool (b : Bool)
  | number (n : Lexeme Number)
  | string (s : Lexeme String)
  | array (items : List Tree) (ending : Ending) (skip : Option Fault)
  | object (members : List (Lexeme String × Tree)) (ending : Ending) (skip : Option Fault)
  | brokenWord (f : Fault)
  | missing (f : Fault)
  deriving Inhabited

namespace Tree

/-- What is wrong with a value for a reader that passes over it. -/
def skip : Tree → Option Fault
  | null => none
  | bool _ => none
  | number n => n.skip
  | string s => s.skip
  | array _ _ f => f
  | object _ _ f => f
  | brokenWord f => some f
  | missing f => some f

/-- The fault of a value that has another form than the one wanted: its own if it has one. -/
def mismatch : Tree → Fault
  | number n => match n.value with
    | .ok _ => .data
    | .error f => f
  | string s => match s.value with
    | .ok _ => .data
    | .error f => f
  | brokenWord f => f
  | missing f => f
  | null | bool _ | array .. | object .. => .data

def firstFault : List (Option Fault) → Option Fault
  | [] => none
  | some f :: _ => some f
  | none :: rest => firstFault rest

def ofItems (items : List Tree) (ending : Ending) : Tree :=
  array items ending (firstFault (items.map skip ++ [ending.fault?]))

def ofMembers (members : List (Lexeme String × Tree)) (ending : Ending) : Tree :=
  object members ending
    (firstFault (members.flatMap (fun m ↦ [m.1.skip, m.2.skip]) ++ [ending.fault?]))

end Tree

/-- Something that has been opened and not closed; its contents so far are listed latest first. -/
inductive Frame where
  | array (items : List Tree)
  | object (members : List (Lexeme String × Tree))
  /-- A member whose key has been read. -/
  | entry (key : Lexeme String)

/-- What may come next. -/
inductive Expected where
  | value
  | itemOrEnd
  | keyOrEnd
  | key
  | colon
  | commaOrEnd
  | nothing

/-- A document in the making. -/
structure Assembly where
  expected : Expected := .value
  stack : List Frame := []
  /-- The document, once it is complete or has been ended by a fault. -/
  result : Option Tree := none
  /-- Something follows the document. -/
  trailing : Bool := false

namespace Assembly

/-- The value `t` is complete. -/
def deliver (t : Tree) : List Frame → Assembly
  | .array items :: k => ⟨.commaOrEnd, .array (t :: items) :: k, none, false⟩
  | .entry key :: .object members :: k =>
    ⟨.commaOrEnd, .object ((key, t) :: members) :: k, none, false⟩
  | _ => ⟨.nothing, [], some t, false⟩

/-- The document that ends where `t` was due: everything open ends there. -/
def collapse (t : Tree) : List Frame → Tree
  | [] => t
  | .array items :: k => collapse (.ofItems (t :: items).reverse .closed) k
  | .entry key :: .object members :: k =>
    collapse (.ofMembers ((key, t) :: members).reverse .closed) k
  | .entry _ :: k => collapse t k
  | .object members :: k => collapse (.ofMembers members.reverse .closed) k

/-- Reading ends: `t` stands where the next value was due. -/
def stop (t : Tree) (k : List Frame) : Assembly := ⟨.nothing, [], some (collapse t k), false⟩

/-- Reading ends inside the array or object on top of the stack. -/
def breakOff (f asKey : Fault) : List Frame → Assembly
  | .array items :: k => stop (.ofItems items.reverse (.fault f asKey)) k
  | .object members :: k => stop (.ofMembers members.reverse (.fault f asKey)) k
  | k => stop (.missing f) k

/-- Close the array or object on top of the stack. -/
def close : List Frame → Assembly
  | .array items :: k => deliver (.ofItems items.reverse .closed) k
  | .object members :: k => deliver (.ofMembers members.reverse .closed) k
  | k => stop (.missing .malformed) k

/-- Read a token where a value is due. -/
def value (k : List Frame) : Token → Assembly
  | .beginArray => ⟨.itemOrEnd, .array [] :: k, none, false⟩
  | .beginObject => ⟨.keyOrEnd, .object [] :: k, none, false⟩
  | .null => deliver .null k
  | .bool b => deliver (.bool b) k
  | .number n => if n.skip.isNone then deliver (.number n) k else stop (.number n) k
  | .string s => if s.skip.isNone then deliver (.string s) k else stop (.string s) k
  | .brokenWord f => stop (.brokenWord f) k
  | .endArray | .endObject | .comma | .colon | .junk => stop (.missing .malformed) k

/-- The fault of a token for a reader that takes any value for a key. -/
def faultAsKey : Token → Fault
  | .beginArray | .beginObject | .null | .bool _ => .data
  | .number n => (Tree.number n).mismatch
  | .string s => (Tree.string s).mismatch
  | .brokenWord f => f
  | .endArray | .endObject | .comma | .colon | .junk => .malformed

/-- Read a token where a key is due after a comma. -/
def key (k : List Frame) : Token → Assembly
  | .string s =>
    if s.skip.isNone then ⟨.colon, .entry s :: k, none, false⟩
    else stop (.missing .malformed) (.entry s :: k)
  | _ => stop (.missing .malformed) (.entry (.broken .malformed) :: k)

def step (a : Assembly) (t : Token) : Assembly :=
  match a.expected with
  | .nothing => { a with trailing := true }
  | .value => value a.stack t
  | .itemOrEnd =>
    match t with
    | .endArray => close a.stack
    | t => value a.stack t
  | .keyOrEnd =>
    match t with
    | .endObject => close a.stack
    | .string s => key a.stack (.string s)
    | t => breakOff .malformed (faultAsKey t) a.stack
  | .key => key a.stack t
  | .colon =>
    match t with
    | .colon => { a with expected := .value }
    | _ => stop (.missing .malformed) a.stack
  | .commaOrEnd =>
    match t, a.stack with
    | .comma, .array _ :: _ => { a with expected := .value }
    | .comma, _ => { a with expected := .key }
    | .endArray, .array items :: k => close (.array items :: k)
    | .endObject, .object members :: k => close (.object members :: k)
    | _, k => breakOff .malformed .malformed k

def finish (a : Assembly) : Assembly :=
  match a.expected with
  | .nothing => a
  | .value | .colon => stop (.missing .eof) a.stack
  | .key => stop (.missing .eof) (.entry (.broken .eof) :: a.stack)
  | .itemOrEnd | .keyOrEnd | .commaOrEnd => breakOff .eof .eof a.stack

end Assembly

/-- A document, and whether anything follows it. -/
structure Document where
  root : Tree
  trailing : Bool

def Document.ofTokens (ts : List Token) : Document :=
  let a := (ts.foldl Assembly.step {}).finish
  ⟨a.result.getD (.missing .eof), a.trailing⟩

def Document.ofSymbols (text : List Text.Symbol) : Document := .ofTokens (tokens text)

def Document.ofString (text : String) : Document := .ofSymbols (Text.Symbol.ofString text)

namespace Tree

mutual

def ofJson : Json → Tree
  | .null => .null
  | .bool b => .bool b
  | .number n => .number ⟨.ok n, none⟩
  | .string s => .string ⟨.ok s, none⟩
  | .array items => .array (ofJsonItems items) .closed none
  | .object members => .object (ofJsonMembers members) .closed none

def ofJsonItems : List Json → List Tree
  | [] => []
  | a :: more => ofJson a :: ofJsonItems more

def ofJsonMembers : List (String × Json) → List (Lexeme String × Tree)
  | [] => []
  | m :: more => (⟨.ok m.1, none⟩, ofJson m.2) :: ofJsonMembers more

end

end Tree
end Rollout.Json
