import Rollout.Number.Shortest

/-!
# JSON values and their text

Members of an object stand in a list.  A record lists its fields in the order it declares them;
an object that was read holds each key once, in ascending order.
-/

namespace Rollout

/-- A number as JSON keeps it apart: a whole number that fits 64 bits, or a double. -/
inductive Json.Number where
  | int (n : Int)
  | double (x : Binary64)
  deriving DecidableEq, Repr, Inhabited

inductive Json where
  | null
  | bool (b : Bool)
  | number (n : Json.Number)
  | string (s : String)
  | array (items : List Json)
  | object (members : List (String × Json))
  deriving Repr, Inhabited

namespace Json

mutual

/-- Equality of values, member by member. -/
def beq : Json → Json → Bool
  | null, null => true
  | bool a, bool b => a == b
  | number a, number b => a == b
  | string a, string b => a == b
  | array a, array b => beqItems a b
  | object a, object b => beqMembers a b
  | _, _ => false

def beqItems : List Json → List Json → Bool
  | [], [] => true
  | a :: as, b :: bs => beq a b && beqItems as bs
  | _, _ => false

def beqMembers : List (String × Json) → List (String × Json) → Bool
  | [], [] => true
  | a :: as, b :: bs => a.1 == b.1 && beq a.2 b.2 && beqMembers as bs
  | _, _ => false

end

instance : BEq Json := ⟨beq⟩

def int (n : Int) : Json := number (.int n)

def strings (items : List String) : Json := array (items.map string)

/-- An optional value, null when absent. -/
def ofOption (encode : α → Json) : Option α → Json
  | none => null
  | some a => encode a

def get? (key : String) : Json → Option Json
  | object members => (members.find? (·.1 == key)).map (·.2)
  | _ => none

/-- Numbers keep one decimal in positional notation, which reaches from the fifth place after
the point to the sixteenth before it.  Of two equally close decimals the even one is written. -/
def numberLayout : Layout := ⟨.toEven, some (-5, 15), ['.', '0'], ['+']⟩

def Number.chars : Number → List Char
  | int n => (toString n).toList
  | double x => numberLayout.text x

def controlDigits (n : Nat) : List Char :=
  [Char.ofNat (48 + n / 16),
    if n % 16 < 10 then Char.ofNat (48 + n % 16) else Char.ofNat (87 + n % 16)]

/-- One character inside a string: the quote, the backslash and the controls are escaped. -/
def escapedChar (c : Char) : List Char :=
  if c = '"' then ['\\', '"']
  else if c = '\\' then ['\\', '\\']
  else if c = '\x08' then ['\\', 'b']
  else if c = '\x0c' then ['\\', 'f']
  else if c = '\n' then ['\\', 'n']
  else if c = '\r' then ['\\', 'r']
  else if c = '\t' then ['\\', 't']
  else if c.toNat < 0x20 then ['\\', 'u', '0', '0'] ++ controlDigits c.toNat
  else [c]

def stringChars (s : String) : List Char := '"' :: s.toList.flatMap escapedChar ++ ['"']

mutual

/-- The compact text of a value, before the text `k`. -/
def charsThen (k : List Char) : Json → List Char
  | null => 'n' :: 'u' :: 'l' :: 'l' :: k
  | bool true => 't' :: 'r' :: 'u' :: 'e' :: k
  | bool false => 'f' :: 'a' :: 'l' :: 's' :: 'e' :: k
  | number n => n.chars ++ k
  | string s => stringChars s ++ k
  | array [] => '[' :: ']' :: k
  | array (a :: more) => '[' :: charsThen (itemsThen k more) a
  | object [] => '\x7b' :: '\x7d' :: k
  | object (m :: more) => '\x7b' :: stringChars m.1 ++ ':' :: charsThen (membersThen k more) m.2

/-- The text of the items after the first, and of the end of the array. -/
def itemsThen (k : List Char) : List Json → List Char
  | [] => ']' :: k
  | a :: more => ',' :: charsThen (itemsThen k more) a

/-- The text of the members after the first, and of the end of the object. -/
def membersThen (k : List Char) : List (String × Json) → List Char
  | [] => '\x7d' :: k
  | m :: more => ',' :: stringChars m.1 ++ ':' :: charsThen (membersThen k more) m.2

end

def chars (v : Json) : List Char := charsThen [] v

def text (v : Json) : String := String.ofList v.chars

end Json
end Rollout
