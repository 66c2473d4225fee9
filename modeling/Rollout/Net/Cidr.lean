import Rollout.Net.Ipv4
import Rollout.Text.Quoted

/-!
# Address blocks

A block is written `address/length`.  It holds the addresses that agree with the given one in the
first `length` bits; the other bits of the given address do not matter.
-/

namespace Rollout.Net

structure Cidr where
  address : Ipv4
  length : Nat
  deriving DecidableEq, Repr

namespace Cidr

/-- The part of a block's text that is at fault, with its text. -/
inductive Fault where
  | form (text : String)
  | address (text : String)
  | length (text : String)
  deriving DecidableEq, Repr

def Fault.message : Fault → String
  | form s => Text.quoted s ++ " is not in address/prefix form"
  | address s => Text.quoted s ++ " is not an IPv4 address"
  | length s => Text.quoted s ++ " is not a prefix length between 0 and 32"

def split? : List Char → Option (List Char × List Char)
  | [] => none
  | c :: rest => if c = '/' then some ([], rest) else (split? rest).map fun (a, b) ↦ (c :: a, b)

/-- The digits of a length: a plus sign may stand before them. -/
def unsigned : List Char → List Char
  | '+' :: ds => ds
  | ds => ds

/-- A length of at most 32, with any number of leading zeros. -/
def parseLength? (s : List Char) : Option Nat :=
  let ds := unsigned s
  if ds.isEmpty || !ds.all Char.isDigit then none
  else if numeral 10 ds ≤ 32 then some (numeral 10 ds) else none

def parse (s : String) : Except Fault Cidr :=
  match split? s.toList with
  | none => .error (.form s)
  | some (address, length) =>
    match Ipv4.parse? address with
    | none => .error (.address (String.ofList address))
    | some a =>
      match parseLength? length with
      | none => .error (.length (String.ofList length))
      | some n => .ok ⟨a, n⟩

/-- The bits that a block fixes: the first `n` of 32. -/
def mask (n : Nat) : UInt32 := if n = 0 then 0 else 0xFFFFFFFF <<< UInt32.ofNat (32 - n)

/-- The blocks agree in the bits that both of them fix. -/
def overlaps (a b : Cidr) : Bool :=
  let m := mask (min a.length b.length)
  a.address &&& m == b.address &&& m

def text (c : Cidr) : String := c.address.text ++ "/" ++ toString c.length

end Cidr
end Rollout.Net
