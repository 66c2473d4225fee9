import Rollout.Workflow.Target

/-!
# Media types

The value of a `Content-Type` header: a type, a slash, a subtype, and parameters behind
semicolons.  The parameters do not matter, but they have to be well formed; they are read by an
automaton, one character at a time.
-/

namespace Rollout.Api

/-- A character of a token: visible, and not a delimiter. -/
def isTokenChar (c : Char) : Bool :=
  0x20 < c.toNat && c.toNat < 0x7f &&
    ! (['(', ')', '<', '>', '@', ',', ';', ':', '\\', '"', '/', '[', ']', '?', '=', '\x7b',
      '\x7d'].contains c)

def isQuotable (c : Char) : Bool := 31 < c.toNat && c.toNat < 127

/-- How far the parameters have been read. -/
inductive ParameterState where
  /-- No parameter has begun. -/
  | between
  | name
  | valueStart
  | value
  | quoteStart
  | quoted
  /-- The closing quote has been read. -/
  | closed
  | broken
  deriving DecidableEq, Repr

namespace ParameterState

/-- Read one more character.  The first character between quotes may itself be a quote. -/
def next : ParameterState → Char → ParameterState
  | between, c => if c = ' ' then between else if isTokenChar c then name else broken
  | name, c => if c = '=' then valueStart else if isTokenChar c then name else broken
  | valueStart, c => if c = '"' then quoteStart else if isTokenChar c then value else broken
  | value, c => if c = ';' then between else if isTokenChar c then value else broken
  | quoteStart, c => if isQuotable c then quoted else broken
  | quoted, c => if c = '"' then closed else if isQuotable c then quoted else broken
  | closed, c => if c = ';' then between else if c = ' ' then closed else broken
  | broken, _ => broken

def isFinal : ParameterState → Bool
  | between | valueStart | value | closed => true
  | name | quoteStart | quoted | broken => false

end ParameterState

def areParameters (s : List Char) : Bool := (s.foldl .next ParameterState.between).isFinal

/-- A media type without its parameters, in lower case.  What follows the last plus sign of a
subtype is its suffix. -/
structure MediaType where
  type : List Char
  subtype : List Char
  deriving DecidableEq, Repr

namespace MediaType

def parse? (text : String) : Option MediaType :=
  let s := (lowerAscii text).toList
  match s.dropWhile isTokenChar with
  | '/' :: rest =>
    let m : MediaType := ⟨s.takeWhile isTokenChar, rest.takeWhile isTokenChar⟩
    if m.type.isEmpty then none
    else match rest.dropWhile isTokenChar with
      | [] => some m
      | ';' :: parameters => if !m.subtype.isEmpty && areParameters parameters then some m else none
      | _ => none
  | _ => none

/-- The subtype without its suffix, and the suffix. -/
def parts (m : MediaType) : List Char × List Char :=
  match m.subtype with
  | [] => ([], [])
  | c :: cs =>
    if cs.contains '+' then
      let suffix := (cs.reverse.takeWhile (· ≠ '+')).reverse
      (c :: cs.take (cs.length - suffix.length - 1), suffix)
    else (m.subtype, [])

def isJson (m : MediaType) : Bool :=
  let json := ['j', 's', 'o', 'n']
  m.type == ['a', 'p', 'p', 'l', 'i', 'c', 'a', 't', 'i', 'o', 'n'] &&
    (m.parts.1 == json || m.parts.2 == json)

end MediaType
end Rollout.Api
