import Rollout.Number.Binary64
import Rollout.Number.Numeral
import Rollout.Text.Front

/-!
# Numbers that a whole text spells

Nothing may stand before or after the number, and digits are not grouped.
-/

namespace Rollout

/-- The sign at the front of a text, a minus or not, and the rest. -/
def readSign : List Char → Bool × List Char
  | '+' :: rest => (false, rest)
  | '-' :: rest => (true, rest)
  | s => (false, s)

/-- A number with a sign. -/
def signed (negative : Bool) (n : Nat) : Int := if negative then -(n : Int) else n

/-- The whole number of 64 bits that a text spells. -/
def wholeNumber? (s : List Char) : Option Int :=
  let (negative, ds) := readSign s
  let n := signed negative (numeral 10 ds)
  if !ds.isEmpty && ds.all (isDigitIn 10) && -0x8000000000000000 ≤ n && n < 0x8000000000000000 then
    some n
  else none

namespace Binary64

/-- The exponent of ten that stands at the end of a text, if anything does. -/
def exponentAtEnd? : List Char → Option Int
  | [] => some 0
  | c :: s =>
    let (negative, ds) := readSign s
    if (c = 'e' || c = 'E') && !ds.isEmpty && ds.all (isDigitIn 10) then
      some (signed negative (numeral 10 ds))
    else none

/-- The number that a text spells: digits with a point among them or beside them, and an exponent,
or a word for infinity or for no number. -/
def ofText? (s : List Char) : Option Binary64 := do
  let (negative, s) := readSign s
  let word := String.ofList (s.map Char.toLower)
  if word = "inf" || word = "infinity" then return ofMagnitude negative infinityBits
  if word = "nan" then return if negative then nan.neg else nan
  let (whole, s) := spanDigits 10 s
  let (fraction, s) := match s with
    | '.' :: rest => spanDigits 10 rest
    | s => ([], s)
  let exponent ← exponentAtEnd? s
  if whole.isEmpty && fraction.isEmpty then none
  else ofDecimal negative (numeral 10 (whole ++ fraction)) (exponent - fraction.length)

end Binary64
end Rollout
