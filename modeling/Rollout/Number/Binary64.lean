/-!
# Binary floating-point numbers of 64 bits

A number is its bit pattern.  Arithmetic is exact arithmetic on natural numbers followed by one
rounding, `ofRatio`: to the nearest representable number, a tie to the one with an even
significand, and to infinity beyond the largest.
-/

namespace Rollout

/-- A number in the format `binary64`, as its bits. -/
structure Binary64 where
  bits : UInt64
  deriving DecidableEq, Repr, Inhabited

namespace Binary64

def signBit : Nat := 0x8000000000000000

/-- The bits of positive infinity; every finite magnitude lies below. -/
def infinityBits : Nat := 0x7FF0000000000000

def magnitude (x : Binary64) : Nat := x.bits.toNat % signBit

def isNegative (x : Binary64) : Bool := signBit ≤ x.bits.toNat

def isFinite (x : Binary64) : Bool := x.magnitude < infinityBits

def isInfinite (x : Binary64) : Bool := x.magnitude == infinityBits

def isNaN (x : Binary64) : Bool := infinityBits < x.magnitude

def isZero (x : Binary64) : Bool := x.magnitude == 0

/-- The number with these magnitude bits and this sign. -/
def ofMagnitude (negative : Bool) (magnitude : Nat) : Binary64 :=
  ⟨UInt64.ofNat (if negative then signBit + magnitude else magnitude)⟩

def zero : Binary64 := ⟨0⟩

def infinity : Binary64 := ofMagnitude false infinityBits

/-- The pattern used for a result that is not a number. -/
def nan : Binary64 := ⟨0x7FF8000000000000⟩

def neg (x : Binary64) : Binary64 := ofMagnitude (!x.isNegative) x.magnitude

/-- The significand and the exponent of two of a finite number's magnitude. -/
def parts (x : Binary64) : Nat × Int :=
  let field : Nat := x.magnitude / 0x10000000000000
  let fraction : Nat := x.magnitude % 0x10000000000000
  if field = 0 then (fraction, -1074) else (0x10000000000000 + fraction, (field : Int) - 1075)

/-- The magnitude of a finite number as a ratio of natural numbers. -/
def ratio (x : Binary64) : Nat × Nat :=
  let (m, e) := x.parts
  if 0 ≤ e then (m * Nat.pow 2 e.toNat, 1) else (m, Nat.pow 2 (-e).toNat)

/-- The quotient of two natural numbers, rounded to the nearest, a tie to the even one. -/
def roundDiv (num den : Nat) : Nat :=
  let q := num / den
  let r := num % den
  if 2 * r < den then q else if den < 2 * r then q + 1 else q + q % 2

/-- The exponent of the last place of a significand of 53 bits for `num / den`, not below that of
the subnormal numbers. -/
def lastPlace (num den : Nat) : Int :=
  let e : Int := (num.log2 : Int) - den.log2 - 52
  let scaled :=
    if 0 ≤ e then num / (den * Nat.pow 2 e.toNat) else num * Nat.pow 2 (-e).toNat / den
  max (-1074) (if scaled < 0x10000000000000 then e - 1 else e)

def ofRatio (negative : Bool) (num den : Nat) : Binary64 :=
  if num = 0 then ofMagnitude negative 0 else
  let e := lastPlace num den
  let q :=
    if 0 ≤ e then roundDiv num (den * Nat.pow 2 e.toNat)
    else roundDiv (num * Nat.pow 2 (-e).toNat) den
  ofMagnitude negative (min infinityBits ((e + 1074).toNat * 0x10000000000000 + q))

/-- The number nearest to `digits · 10 ^ exponent`.  Exponents that can only give zero or
infinity are not multiplied out. -/
def ofDecimal (negative : Bool) (digits : Nat) (exponent : Int) : Binary64 :=
  if digits = 0 then ofMagnitude negative 0
  else if 400 < exponent then ofMagnitude negative infinityBits
  else if exponent + digits.log2 < -400 then ofMagnitude negative 0
  else if 0 ≤ exponent then ofRatio negative (digits * Nat.pow 10 exponent.toNat) 1
  else ofRatio negative digits (Nat.pow 10 (-exponent).toNat)

def ofNat (n : Nat) : Binary64 := ofRatio false n 1

/-- The product of two finite numbers, rounded. -/
def mul (x y : Binary64) : Binary64 :=
  let (a, b) := x.ratio
  let (c, d) := y.ratio
  ofRatio (x.isNegative != y.isNegative) (a * c) (b * d)

/-- The quotient of two finite numbers, the second not zero, rounded. -/
def div (x y : Binary64) : Binary64 :=
  let (a, b) := x.ratio
  let (c, d) := y.ratio
  ofRatio (x.isNegative != y.isNegative) (a * d) (b * c)

end Binary64
end Rollout
