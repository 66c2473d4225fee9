import Rollout.Number.Binary64

/-!
# The shortest decimal that reads back

The digits written for a number are the fewest from which the nearest number is that number
again, and of these the closest to it.  `Layout` says how a format spells them, and which of two
decimals it takes that are equally close.
-/

namespace Rollout

/-- A positive decimal `0.d₁d₂… · 10 ^ point`: its digits as a number without trailing zeros,
their count, and the place of the point. -/
structure Decimal where
  digits : List Char
  point : Int
  deriving Repr, Inhabited, DecidableEq

/-- Which of two neighbouring decimals stands for a number in the middle between them. -/
inductive Tie where
  /-- The one whose last digit is even. -/
  | toEven
  /-- The one that is farther from zero. -/
  | away
  deriving DecidableEq, Repr

/-- The lower neighbour, whose digits are `low`, stands for the middle. -/
def Tie.takesLower (tie : Tie) (low : Nat) : Bool :=
  match tie with
  | toEven => low % 2 == 0
  | away => false

namespace Binary64

/-- The digits of `n` in base ten. -/
def decimalDigits (n : Nat) : List Char := Nat.toDigits 10 n

/-- The place of the decimal point of `num / den`: the least `k` with the ratio below `10 ^ k`.  The
estimate that it is sought from, by the binary lengths, is too small by at most two. -/
def pointOf (num den : Nat) : Int :=
  let guess : Int := ((num.log2 : Int) - den.log2 - 1) * 30103 / 100000
  let below (k : Int) : Bool :=
    if 0 ≤ k then num < den * Nat.pow 10 k.toNat else num * Nat.pow 10 (-k).toNat < den
  if below guess then guess else if below (guess + 1) then guess + 1 else guess + 2

/-- The neighbours of the ratio among the decimals with `count` digits that read back as `x`, the
closest first. -/
def candidates (tie : Tie) (x : Binary64) (num den : Nat) (point : Int) (count : Nat) : List Nat :=
  let unit : Int := point - count
  let (n, d) :=
    if 0 ≤ unit then (num, den * Nat.pow 10 unit.toNat)
    else (num * Nat.pow 10 (-unit).toNat, den)
  let low := n / d
  let lowFirst := match compare (2 * (n % d)) d with
    | .lt => true
    | .eq => tie.takesLower low
    | .gt => false
  let near := if lowFirst then [low, low + 1] else [low + 1, low]
  near.filter fun c ↦ c != 0 && ofDecimal x.isNegative c unit == x

/-- The digits found with at most `fuel` more attempts, the next one with `count` digits. -/
def shortestFrom (tie : Tie) (x : Binary64) (num den : Nat) (point : Int) : Nat → Nat → Decimal
  | 0, _ => ⟨['0'], 1⟩
  | fuel + 1, count =>
    match candidates tie x num den point count with
    | c :: _ =>
      let ds := decimalDigits c
      ⟨(ds.reverse.dropWhile (· == '0')).reverse, point - count + ds.length⟩
    | [] => shortestFrom tie x num den point fuel (count + 1)

/-- The shortest decimal of a finite number's magnitude; seventeen digits always suffice. -/
def shortest (tie : Tie) (x : Binary64) : Decimal :=
  if x.isZero then ⟨['0'], 1⟩ else
  let (num, den) := x.ratio
  shortestFrom tie x num den (pointOf num den) 17 1

end Binary64

/-- How a format spells a decimal. -/
structure Layout where
  tie : Tie
  /-- The least and the greatest place of the first digit that is written without an exponent. -/
  positional : Option (Int × Int)
  /-- Written after a whole number in positional notation. -/
  wholeSuffix : List Char
  /-- Written before a non-negative exponent. -/
  plus : List Char

namespace Layout

def positionalText (l : Layout) (d : Decimal) : List Char :=
  let n := d.digits.length
  if d.point ≤ 0 then ['0', '.'] ++ List.replicate (-d.point).toNat '0' ++ d.digits
  else if n ≤ d.point then
    d.digits ++ List.replicate (d.point.toNat - n) '0' ++ l.wholeSuffix
  else d.digits.take d.point.toNat ++ ['.'] ++ d.digits.drop d.point.toNat

/-- One digit before the point, and an exponent. -/
def scientificText (l : Layout) (d : Decimal) : List Char :=
  let mantissa := match d.digits with
    | [] => []
    | [a] => [a]
    | a :: more => a :: '.' :: more
  let e := d.point - 1
  mantissa ++ ['e'] ++ (if e < 0 then ['-'] else l.plus) ++ Binary64.decimalDigits e.natAbs

def text (l : Layout) (x : Binary64) : List Char :=
  if x.isNaN then ['N', 'a', 'N'] else
  let sign := if x.isNegative then ['-'] else []
  if x.isInfinite then sign ++ ['i', 'n', 'f'] else
  let d := x.shortest l.tie
  let first := d.point - 1
  let inside := match l.positional with
    | none => true
    | some (least, greatest) => least ≤ first && first ≤ greatest
  sign ++ if inside then l.positionalText d else l.scientificText d

end Layout
end Rollout
