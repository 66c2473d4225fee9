import Rollout.Text.Blank
import Rollout.Number.Shortest

/-!
# Points in time

A timestamp counts seconds from the start of 1970 in UTC, and nanoseconds within the second.  A
leap second is the second before it with a thousand million nanoseconds more.  Its text is that of
RFC 3339; reading is lenient about blanks and about the number of digits.
-/

namespace Rollout

structure Timestamp where
  seconds : Int
  nanos : Nat
  deriving DecidableEq, Repr

namespace Timestamp

def epoch : Timestamp := ⟨0, 0⟩

instance : Inhabited Timestamp := ⟨epoch⟩

/-! ### The calendar -/

/-- The days from the start of 1970 to a day of the proleptic Gregorian calendar.  Years are
counted from March, in eras of four hundred. -/
def daysFromCivil (year : Int) (month day : Nat) : Int :=
  let y := if month ≤ 2 then year - 1 else year
  let era := y / 400
  let yearOfEra := y - era * 400
  let monthFromMarch : Int := if month ≤ 2 then month + 9 else month - 3
  let dayOfYear : Int := (153 * monthFromMarch + 2) / 5 + day - 1
  let dayOfEra := yearOfEra * 365 + yearOfEra / 4 - yearOfEra / 100 + dayOfYear
  era * 146097 + dayOfEra - 719468

/-- The year, month and day that lie `days` days after the start of 1970. -/
def civilFromDays (days : Int) : Int × Nat × Nat :=
  let z := days + 719468
  let era := z / 146097
  let dayOfEra := z - era * 146097
  let yearOfEra := (dayOfEra - dayOfEra / 1460 + dayOfEra / 36524 - dayOfEra / 146096) / 365
  let dayOfYear := dayOfEra - (365 * yearOfEra + yearOfEra / 4 - yearOfEra / 100)
  let monthFromMarch := (5 * dayOfYear + 2) / 153
  let day := dayOfYear - (153 * monthFromMarch + 2) / 5 + 1
  let month := if monthFromMarch < 10 then monthFromMarch + 3 else monthFromMarch - 9
  let year := yearOfEra + era * 400 + (if month ≤ 2 then 1 else 0)
  (year, month.toNat, day.toNat)

def isLeapYear (year : Int) : Bool := year % 4 == 0 && (year % 100 != 0 || year % 400 == 0)

def daysInMonth (year : Int) (month : Nat) : Nat :=
  if month = 2 then (if isLeapYear year then 29 else 28)
  else if month = 4 || month = 6 || month = 9 || month = 11 then 30
  else 31

def yearInRange (year : Int) : Bool := -262143 ≤ year && year ≤ 262142

/-! ### Writing -/

/-- A number with leading zeros up to `width` digits. -/
def padded (width n : Nat) : List Char :=
  let ds := Nat.toDigits 10 n
  List.replicate (width - ds.length) '0' ++ ds

/-- The fraction of a second, with none, three, six or nine digits: the fewest that are exact. -/
def fractionText (nanos : Nat) : List Char :=
  if nanos = 0 then []
  else if nanos % 1000000 = 0 then '.' :: padded 3 (nanos / 1000000)
  else if nanos % 1000 = 0 then '.' :: padded 6 (nanos / 1000)
  else '.' :: padded 9 nanos

/-- The year, with four digits, or with a sign and five at least. -/
def yearText (year : Int) : List Char :=
  if 0 ≤ year && year ≤ 9999 then padded 4 year.toNat
  else (if year < 0 then '-' else '+') :: padded 4 year.natAbs

/-- The text of a point in time, in UTC. -/
def text (t : Timestamp) : String :=
  let days := t.seconds / 86400
  let time := (t.seconds - days * 86400).toNat
  let (year, month, day) := civilFromDays days
  let leap := 1000000000 ≤ t.nanos
  let second := time % 60 + (if leap then 1 else 0)
  let nanos := if leap then t.nanos - 1000000000 else t.nanos
  String.ofList <|
    yearText year ++ ['-'] ++ padded 2 month ++ ['-'] ++ padded 2 day ++ ['T'] ++
    padded 2 (time / 3600) ++ [':'] ++ padded 2 (time / 60 % 60) ++ [':'] ++ padded 2 second ++
    fractionText nanos ++ ['Z']

/-! ### Reading -/

def skipBlanks (s : List Char) : List Char := s.dropWhile Text.isBlank

/-- A number of one to `most` digits, and the rest. -/
def number? (most : Nat) (s : List Char) : Option (Nat × List Char) :=
  let ds := (s.take most).takeWhile Char.isDigit
  if ds.isEmpty then none
  else some (ds.foldl (fun n c ↦ n * 10 + (c.toNat - 48)) 0, s.drop ds.length)

/-- A number of one or two digits from `least` to `greatest`, after blanks. -/
def field? (least greatest : Nat) (s : List Char) : Option (Nat × List Char) := do
  let (n, rest) ← number? 2 (skipBlanks s)
  if least ≤ n && n ≤ greatest then some (n, rest) else none

/-- The year: at most four digits, or any number of them after a sign. -/
def year? (s : List Char) : Option (Int × List Char) := do
  match skipBlanks s with
  | '-' :: rest =>
    let (n, rest) ← number? rest.length rest
    some (-(n : Int), rest)
  | '+' :: rest =>
    let (n, rest) ← number? rest.length rest
    some (n, rest)
  | rest =>
    let (n, rest) ← number? 4 rest
    some (n, rest)

/-- The rest after the character `c`, which blanks may surround. -/
def separator? (c : Char) (s : List Char) : Option (List Char) :=
  match skipBlanks s with
  | d :: rest => if c = d then some (skipBlanks rest) else none
  | [] => none

/-- The fraction of a second in nanoseconds.  Digits after the ninth are dropped. -/
def fraction? (s : List Char) : Option (Nat × List Char) :=
  match s with
  | '.' :: rest => do
    let (n, _) ← number? 9 rest
    let ds := rest.takeWhile Char.isDigit
    some (n * Nat.pow 10 (9 - min 9 ds.length), rest.drop ds.length)
  | s => some (0, s)

def offset? (s : List Char) : Option (Int × List Char) := do
  match s with
  | 'Z' :: rest | 'z' :: rest => some (0, rest)
  | sign :: h1 :: h2 :: rest =>
    let negative ← if sign = '+' then some false
      else if sign = '-' || sign = '\u2212' then some true else none
    if h1.isDigit && h2.isDigit then
      match rest.dropWhile (fun c ↦ c = ':' || Text.isBlank c) with
      | m1 :: m2 :: rest =>
        if '0' ≤ m1 && m1 ≤ '5' && m2.isDigit then
          let hours := (h1.toNat - 48) * 10 + (h2.toNat - 48)
          let minutes := (m1.toNat - 48) * 10 + (m2.toNat - 48)
          let seconds : Int := hours * 3600 + minutes * 60
          some (if negative then -seconds else seconds, rest)
        else none
      | _ => none
    else none
  | _ => none

/-- The offset in a text, which may also be spelt `UTC`. -/
def zone? (s : List Char) : Option (Int × List Char) :=
  if (s.take 3).map Char.toUpper = ['U', 'T', 'C'] then some (0, s.drop 3) else offset? s

def parse? (s : String) : Option Timestamp := do
  let (year, rest) ← year? s.toList
  let (month, rest) ← field? 1 12 (← separator? '-' rest)
  let (day, rest) ← field? 1 31 (← separator? '-' rest)
  let rest ← match rest with
    | 'T' :: rest | 't' :: rest | ' ' :: rest => some rest
    | _ => none
  let (hour, rest) ← field? 0 23 rest
  let (minute, rest) ← field? 0 59 (← separator? ':' rest)
  let (second, rest) ← field? 0 60 (← separator? ':' rest)
  let (nanos, rest) ← fraction? rest
  let (offset, rest) ← zone? (skipBlanks rest)
  if !(skipBlanks rest).isEmpty || !yearInRange year || daysInMonth year month < day ||
      86400 ≤ offset.natAbs then none
  else
    let leap := second = 60
    let second := if leap then 59 else second
    let wallClock : Int :=
      daysFromCivil year month day * 86400 + (hour * 3600 + minute * 60 + second : Nat)
    let t : Timestamp := ⟨wallClock - offset, if leap then nanos + 1000000000 else nanos⟩
    if yearInRange (civilFromDays (t.seconds / 86400)).1 then some t else none

end Timestamp
end Rollout
