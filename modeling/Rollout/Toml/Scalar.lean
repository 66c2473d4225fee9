import Rollout.Number.Reading
import Rollout.Toml.Value

/-!
# Single values of a TOML document

Texts stand between one quote or three of either kind.  Double quotes allow escapes; three quotes
allow line breaks.  Digits of a number may be grouped by single underscores.
-/

namespace Rollout.Toml

open Text (readChar? readWord?)

/-! ### Line breaks -/

def readBreak? : List Char → Option (List Char)
  | '\n' :: rest => some rest
  | '\r' :: '\n' :: rest => some rest
  | _ => none

def isSpace (c : Char) : Bool := c = ' ' || c = '\t'

def skipSpaces (s : List Char) : List Char := s.dropWhile isSpace

def skipBreaks : List Char → List Char
  | [] => []
  | '\r' :: '\n' :: rest => skipBreaks rest
  | c :: rest => if isSpace c || c = '\n' then skipBreaks rest else c :: rest

theorem length_skipBreaks_le (s : List Char) : (skipBreaks s).length ≤ s.length := by
  fun_induction skipBreaks s <;> simp_all only [List.length_cons, Nat.le_refl] <;> omega

/-! ### Texts -/

/-- The character stands for itself: a tab, or no control. -/
def isPlain (c : Char) : Bool := c = '\t' || (0x20 ≤ c.toNat && c ≠ '\x7f')

def letterEscape? (c : Char) : Option Char :=
  if c = '"' || c = '\\' then some c
  else if c = 'b' then some '\x08'
  else if c = 't' then some '\t'
  else if c = 'n' then some '\n'
  else if c = 'f' then some '\x0c'
  else if c = 'r' then some '\r'
  else none

/-- The number of digits of an escape by code point. -/
def codeLength? (c : Char) : Option Nat :=
  if c = 'u' then some 4 else if c = 'U' then some 8 else none

def charOf? (n : Nat) : Option Char := if n.isValidChar then some (Char.ofNat n) else none

def readEscape? : List Char → Option (Char × List Char)
  | [] => none
  | c :: rest =>
    match letterEscape? c with
    | some e => some (e, rest)
    | none => do
      let (n, rest) ← readFixed? 16 (← codeLength? c) rest
      some (← charOf? n, rest)

theorem length_readEscape? {s rest : List Char} {c : Char} (h : readEscape? s = some (c, rest)) :
    rest.length < s.length := by
  unfold readEscape? at h
  split at h
  · cases h
  · split at h
    · cases h
      exact Nat.lt_succ_self _
    · simp only [Option.bind_eq_bind, Option.bind_eq_some_iff, Prod.exists] at h
      obtain ⟨_, _, n, t, ht, e, _, h⟩ := h
      cases h
      unfold readFixed? at ht
      simp only at ht
      split at ht
      · cases ht
        simp only [List.length_drop, List.length_cons]
        omega
      · cases ht

/-- The end of a text between three quotes, after the first quote: up to two quotes before the
last three belong to the text. -/
def closing? (quote : Char) (rest : List Char) : Option (List Char × List Char) :=
  let n := (rest.takeWhile (· == quote)).length
  if n < 2 then none
  else
    let inside := min (n - 2) 2
    some (List.replicate inside quote, rest.drop (inside + 2))

/-- Read a text up to its closing quote, or its three closing quotes if it may have several
`lines`.  `acc` holds the characters before, latest first. -/
def readLiteral? (lines : Bool) (acc : List Char) : List Char → Option (List Char × List Char)
  | [] => none
  | '\'' :: rest =>
    if lines then
      match closing? '\'' rest with
      | some (more, rest) => some (acc.reverse ++ more, rest)
      | none => readLiteral? lines ('\'' :: acc) rest
    else some (acc.reverse, rest)
  | '\r' :: '\n' :: rest => if lines then readLiteral? lines ('\n' :: acc) rest else none
  | c :: rest =>
    if isPlain c || (lines && c = '\n') then readLiteral? lines (c :: acc) rest else none

/-- A backslash before `rest` joins two lines. -/
def joinsLines (rest : List Char) : Bool := (readBreak? (skipSpaces rest)).isSome

/-- Read a text with escapes up to its closing quote, or its three closing quotes if it may have
several `lines`.  A backslash at the end of a line takes the blanks up to the next word away. -/
def readEscaped? (lines : Bool) (acc s : List Char) : Option (List Char × List Char) :=
  match s with
  | [] => none
  | '"' :: rest =>
    if lines then
      match closing? '"' rest with
      | some (more, rest) => some (acc.reverse ++ more, rest)
      | none => readEscaped? lines ('"' :: acc) rest
    else some (acc.reverse, rest)
  | '\\' :: rest =>
    if lines && joinsLines rest then
      have := length_skipBreaks_le rest
      readEscaped? lines acc (skipBreaks rest)
    else
      match h : readEscape? rest with
      | some (c, rest') =>
        have := length_readEscape? h
        readEscaped? lines (c :: acc) rest'
      | none => none
  | '\r' :: '\n' :: rest => if lines then readEscaped? lines ('\n' :: acc) rest else none
  | c :: rest =>
    if isPlain c || (lines && c = '\n') then readEscaped? lines (c :: acc) rest else none
termination_by s.length

/-- The text without the line break at its front, if there is one. -/
def afterBreak (s : List Char) : List Char := (readBreak? s).getD s

def readText? (s : List Char) : Option (String × List Char) :=
  let chars := match s with
    | '"' :: '"' :: '"' :: rest => readEscaped? true [] (afterBreak rest)
    | '"' :: rest => readEscaped? false [] rest
    | '\'' :: '\'' :: '\'' :: rest => readLiteral? true [] (afterBreak rest)
    | '\'' :: rest => readLiteral? false [] rest
    | _ => none
  chars.map fun (cs, rest) ↦ (String.ofList cs, rest)

/-! ### Numbers -/

/-- The digits at the front of a text, with the single underscores between them left out, and the
rest. -/
def spanGrouped (base : Nat) : List Char → List Char × List Char
  | [] => ([], [])
  | c :: rest =>
    if isDigitIn base c then
      let (ds, rest) := spanGrouped base rest
      (c :: ds, rest)
    else if c = '_' && (rest.head?.map (isDigitIn base)).getD false then spanGrouped base rest
    else ([], c :: rest)

/-- Read digits, the first of them not after an underscore. -/
def readGrouped? (base : Nat) (s : List Char) : Option (List Char × List Char) :=
  if (s.head?.map (isDigitIn base)).getD false then some (spanGrouped base s) else none

/-- Read a whole number: zero stands alone. -/
def readWhole? : List Char → Option (List Char × List Char)
  | '0' :: rest => some (['0'], rest)
  | s => readGrouped? 10 s

def readExponent? : List Char → Option (Int × List Char)
  | c :: rest => do
    if c = 'e' || c = 'E' then
      let (negative, rest) := readSign rest
      let (ds, rest) ← readGrouped? 10 rest
      some (signed negative (numeral 10 ds), rest)
    else none
  | [] => none

/-- Read a number with a fraction or an exponent.  One that is too large is refused, unless it is
negative. -/
def readDecimal? (negative : Bool) (s : List Char) : Option (Binary64 × List Char) := do
  let (whole, s) ← readWhole? s
  let (fraction, exponent, s) ← match s with
    | '.' :: s => do
      let (ds, s) ← readGrouped? 10 s
      let (e, s) := (readExponent? s).getD (0, s)
      some (ds, e, s)
    | s => do
      let (e, s) ← readExponent? s
      some ([], e, s)
  let x := Binary64.ofDecimal negative (numeral 10 (whole ++ fraction)) (exponent - fraction.length)
  if x = Binary64.infinity then none else some (x, s)

def readFloat? (s : List Char) : Option (Binary64 × List Char) :=
  let (negative, s) := readSign s
  let turned (x : Binary64) : Binary64 := if negative then x.neg else x
  match readWord? ['i', 'n', 'f'] s, readWord? ['n', 'a', 'n'] s with
  | some rest, _ => some (turned .infinity, rest)
  | _, some rest => some (turned .nan, rest)
  | none, none => readDecimal? negative s

/-- The whole numbers of a document fit 64 bits with a sign. -/
def fits (n : Int) : Bool := -0x8000000000000000 ≤ n && n < 0x8000000000000000

/-- Read a whole number, in base ten with a sign, or in another base without one. -/
def readInteger? (s : List Char) : Option (Int × List Char) := do
  let inBase (base : Nat) (s : List Char) : Option (Int × List Char) := do
    let (ds, rest) ← readGrouped? base s
    some (numeral base ds, rest)
  let (n, rest) ← match s with
    | '0' :: 'x' :: s => inBase 16 s
    | '0' :: 'o' :: s => inBase 8 s
    | '0' :: 'b' :: s => inBase 2 s
    | s => do
      let (negative, s) := readSign s
      let (ds, rest) ← readWhole? s
      some (signed negative (numeral 10 ds), rest)
  if fits n then some (n, rest) else none

def readBool? (s : List Char) : Option (Bool × List Char) :=
  match readWord? ['t', 'r', 'u', 'e'] s, readWord? ['f', 'a', 'l', 's', 'e'] s with
  | some rest, _ => some (true, rest)
  | none, some rest => some (false, rest)
  | none, none => none

def readScalar? (s : List Char) : Option (Toml × List Char) :=
  ((readText? s).map fun (a, rest) ↦ (.string a, rest)).or <|
  ((readBool? s).map fun (b, rest) ↦ (.bool b, rest)).or <|
  ((readMoment? s).map fun (m, rest) ↦ (.moment m, rest)).or <|
  ((readFloat? s).map fun (x, rest) ↦ (.float x, rest)).or <|
  (readInteger? s).map fun (n, rest) ↦ (.int n, rest)

end Rollout.Toml
