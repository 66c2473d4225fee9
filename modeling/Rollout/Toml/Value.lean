import Rollout.Number.Numeral
import Rollout.Text.Front
import Rollout.Timestamp

/-!
# Values of a TOML document

Besides texts, numbers and truth values a document holds dates and times, which keep the form in
which they were given: a date, a time of day, or both, and with both an offset from UTC.
-/

namespace Rollout

namespace Toml

open Text (readChar?)

def isBareKeyChar (c : Char) : Bool := c.isAlphanum || c = '_' || c = '-'

structure Date where
  year : Nat
  month : Nat
  day : Nat
  deriving DecidableEq, Repr

structure TimeOfDay where
  hour : Nat
  minute : Nat
  second : Nat
  nanos : Nat
  deriving DecidableEq, Repr

/-- How far a clock is from UTC: not at all, by definition, or by a number of minutes. -/
inductive Offset where
  | utc
  | minutes (n : Int)
  deriving DecidableEq, Repr

inductive Moment where
  | date (d : Date)
  | time (t : TimeOfDay)
  | both (d : Date) (t : TimeOfDay) (offset : Option Offset)
  deriving DecidableEq, Repr

/-! ### Writing -/

def twoDigits (n : Nat) : List Char := Timestamp.padded 2 n

def Date.chars (d : Date) : List Char :=
  Timestamp.padded 4 d.year ++ ['-'] ++ twoDigits d.month ++ ['-'] ++ twoDigits d.day

/-- The text of a time; the fraction of the second has no trailing zeros. -/
def TimeOfDay.chars (t : TimeOfDay) : List Char :=
  twoDigits t.hour ++ [':'] ++ twoDigits t.minute ++ [':'] ++ twoDigits t.second ++
    if t.nanos = 0 then []
    else '.' :: ((Timestamp.padded 9 t.nanos).reverse.dropWhile (· == '0')).reverse

def Offset.chars : Offset → List Char
  | utc => ['Z']
  | minutes n =>
    (if n < 0 then '-' else '+') :: twoDigits (n.natAbs / 60) ++ [':'] ++ twoDigits (n.natAbs % 60)

def Moment.text : Moment → String
  | date d => String.ofList d.chars
  | time t => String.ofList t.chars
  | both d t offset =>
    String.ofList (d.chars ++ ['T'] ++ t.chars ++ (offset.map Offset.chars).getD [])

/-! ### Reading -/

/-- Read two digits that spell a number from `least` to `greatest`. -/
def readPart? (least greatest : Nat) (s : List Char) : Option (Nat × List Char) := do
  let (n, rest) ← readFixed? 10 2 s
  if least ≤ n && n ≤ greatest then some (n, rest) else none

def readDate? (s : List Char) : Option (Date × List Char) := do
  let (year, s) ← readFixed? 10 4 s
  let (month, s) ← readPart? 1 12 (← readChar? '-' s)
  let (day, s) ← readPart? 1 (Timestamp.daysInMonth year month) (← readChar? '-' s)
  some (⟨year, month, day⟩, s)

/-- Read the fraction of a second in nanoseconds, if there is one.  Digits after the ninth are
dropped. -/
def readFraction : List Char → Nat × List Char
  | '.' :: s =>
    let (ds, rest) := spanDigits 10 s
    if ds.isEmpty then (0, '.' :: s)
    else (numeral 10 (ds.take 9) * Nat.pow 10 (9 - min 9 ds.length), rest)
  | s => (0, s)

/-- Read a time of day.  The second may be a leap second. -/
def readTime? (s : List Char) : Option (TimeOfDay × List Char) := do
  let (hour, s) ← readPart? 0 23 s
  let (minute, s) ← readPart? 0 59 (← readChar? ':' s)
  let (second, s) ← readPart? 0 60 (← readChar? ':' s)
  let (nanos, s) := readFraction s
  some (⟨hour, minute, second, nanos⟩, s)

def readOffset? : List Char → Option (Offset × List Char)
  | 'Z' :: s | 'z' :: s => some (.utc, s)
  | sign :: s => do
    let negative ← if sign = '+' then some false else if sign = '-' then some true else none
    let (hours, s) ← readPart? 0 23 s
    let (minutes, s) ← readPart? 0 59 (← readChar? ':' s)
    let n : Int := hours * 60 + minutes
    some (.minutes (if negative then -n else n), s)
  | [] => none

/-- Read a date, and the time after it if there is one. -/
def readDated? (s : List Char) : Option (Moment × List Char) := do
  let (d, rest) ← readDate? s
  let time := match rest with
    | c :: s => if c = 'T' || c = 't' || c = ' ' then readTime? s else none
    | [] => none
  match time with
  | none => some (.date d, rest)
  | some (t, rest) =>
    match readOffset? rest with
    | none => some (.both d t none, rest)
    | some (o, rest) => some (.both d t (some o), rest)

def readMoment? (s : List Char) : Option (Moment × List Char) :=
  (readDated? s).or ((readTime? s).map fun (t, rest) ↦ (.time t, rest))

end Toml

/-- A value of a document.  The members of a table stand in a list: a table that was read holds
each key once, in ascending order. -/
inductive Toml where
  | string (s : String)
  | int (n : Int)
  | float (x : Binary64)
  | bool (b : Bool)
  | moment (m : Toml.Moment)
  | array (items : List Toml)
  | table (members : List (String × Toml))
  deriving Repr, Inhabited

end Rollout
