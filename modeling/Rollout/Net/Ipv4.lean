import Rollout.Number.Numeral
import Rollout.Text.Front

/-!
# IPv4 addresses

Four decimal octets between dots, without leading zeros.
-/

namespace Rollout.Net

abbrev Ipv4 := UInt32

namespace Ipv4

def ofOctets (a b c d : Nat) : Ipv4 := UInt32.ofNat (((a * 256 + b) * 256 + c) * 256 + d)

def octets (x : Ipv4) : List Nat :=
  [x.toNat / 0x1000000, x.toNat / 0x10000 % 256, x.toNat / 0x100 % 256, x.toNat % 256]

/-- Read an octet: one to three digits, no zero before another, at most 255. -/
def readOctet? (s : List Char) : Option (Nat × List Char) :=
  let (ds, rest) := spanDigits 10 s
  let n := numeral 10 ds
  if ds.isEmpty || 3 < ds.length || (1 < ds.length && ds.head? == some '0') || 255 < n then none
  else some (n, rest)

def read? (s : List Char) : Option (Ipv4 × List Char) := do
  let (a, s) ← readOctet? s
  let (b, s) ← readOctet? (← Text.readChar? '.' s)
  let (c, s) ← readOctet? (← Text.readChar? '.' s)
  let (d, s) ← readOctet? (← Text.readChar? '.' s)
  some (ofOctets a b c d, s)

def parse? (s : List Char) : Option Ipv4 :=
  match read? s with
  | some (x, []) => some x
  | _ => none

def text (x : Ipv4) : String := ".".intercalate (x.octets.map toString)

end Ipv4
end Rollout.Net
