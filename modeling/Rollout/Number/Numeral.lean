/-!
# Numerals

Digits in bases up to sixteen, and the numbers that they spell.
-/

namespace Rollout

def digitValue? (base : Nat) (c : Char) : Option Nat :=
  let v :=
    if c.isDigit then some (c.toNat - 48)
    else if 'a' ≤ c && c ≤ 'f' then some (c.toNat - 87)
    else if 'A' ≤ c && c ≤ 'F' then some (c.toNat - 55)
    else none
  v.filter (· < base)

def isDigitIn (base : Nat) (c : Char) : Bool := (digitValue? base c).isSome

def numeral (base : Nat) (s : List Char) : Nat :=
  s.foldl (fun n c ↦ n * base + (digitValue? base c).getD 0) 0

/-- The digits at the front of a text, and the rest. -/
def spanDigits (base : Nat) (s : List Char) : List Char × List Char :=
  (s.takeWhile (isDigitIn base), s.dropWhile (isDigitIn base))

/-- Read exactly `count` digits: the number that they spell, and the rest. -/
def readFixed? (base count : Nat) (s : List Char) : Option (Nat × List Char) :=
  let ds := s.take count
  if ds.length = count && ds.all (isDigitIn base) then some (numeral base ds, s.drop count)
  else none

end Rollout
