import Rollout.Json.Value
import Rollout.Text.Utf8

/-!
# The tokens of a JSON text

A text is cut into tokens before it is given a structure.  A token that cannot be read carries
its fault, and nothing is cut after it.  Numbers and strings are cut in two ways at once: as they
read when their value is wanted, and as they read when they are only passed over, which asks less
of them.
-/

namespace Rollout.Json

/-- Why a text is not accepted: it ends too early, it is no JSON, or it is JSON of another form
than the one wanted. -/
inductive Fault where
  | eof
  | malformed
  | data
  deriving DecidableEq, Repr, Inhabited

/-- Something that reads as `value` where the value is wanted.  Where it is only passed over,
`skip` tells what is wrong with it, if anything. -/
structure Lexeme (α : Type) where
  value : Except Fault α
  skip : Option Fault
  deriving Repr

instance : Inhabited (Lexeme α) := ⟨⟨.error .malformed, some .malformed⟩⟩

/-- The text to go on with after a lexeme; none after one that cannot even be passed over. -/
def Lexeme.after (l : Lexeme α) (rest : List Text.Symbol) : List Text.Symbol :=
  if l.skip.isNone then rest else []

/-- What follows a lexeme is not longer than what was given, which is why the reading of tokens
ends. -/
theorem Lexeme.length_after_le (l : Lexeme α) (rest : List Text.Symbol) :
    (l.after rest).length ≤ rest.length := by
  unfold after
  split
  · exact Nat.le_refl _
  · exact Nat.zero_le _

/-- A lexeme that reads the same either way. -/
def Lexeme.broken (f : Fault) : Lexeme α := ⟨.error f, some f⟩

/-- The pieces of a JSON text. -/
inductive Token where
  | beginArray
  | endArray
  | beginObject
  | endObject
  | comma
  | colon
  | null
  | bool (b : Bool)
  | number (n : Lexeme Number)
  | string (s : Lexeme String)
  /-- A word that begins like `null`, `true` or `false` and goes on otherwise. -/
  | brokenWord (f : Fault)
  /-- A symbol that begins no token. -/
  | junk
  deriving Repr, Inhabited

/-! ### Numbers -/

def digit? : Text.Symbol → Option Nat
  | .char c => if c.isDigit then some (c.toNat - 48) else none
  | .stray _ => none

def leadingDigits (text : List Text.Symbol) : List Nat :=
  (text.takeWhile fun s ↦ (digit? s).isSome).filterMap digit?

def afterDigits (text : List Text.Symbol) : List Text.Symbol :=
  text.dropWhile fun s ↦ (digit? s).isSome

theorem length_afterDigits_le (text : List Text.Symbol) :
    (afterDigits text).length ≤ text.length :=
  (List.dropWhile_suffix _).length_le

/-- The largest significand that is collected before a number is scaled. -/
def maxSignificand : Nat := 0xFFFFFFFFFFFFFFFF

/-- Collect digits while the significand fits 64 bits, and count them. -/
def collect (significand count : Nat) : List Nat → Nat × Nat
  | [] => (significand, count)
  | d :: ds =>
    if significand * 10 + d ≤ maxSignificand then collect (significand * 10 + d) (count + 1) ds
    else (significand, count)

/-- `x · 10 ^ exponent` in at most `fuel` roundings after the first: powers up to `10 ^ 308` are
applied as the nearest double.  There is no value if the result would be infinite. -/
def scale (x : Binary64) (exponent : Int) : Nat → Option Binary64
  | 0 => some Binary64.zero
  | fuel + 1 =>
    if exponent.natAbs ≤ 308 then
      let power := Binary64.ofDecimal false 1 exponent.natAbs
      if 0 ≤ exponent then
        let y := x.mul power
        if y.isInfinite then none else some y
      else some (x.div power)
    else if x.isZero then some x
    else if 0 ≤ exponent then none
    else scale (x.div (Binary64.ofDecimal false 1 308)) (exponent + 308) fuel

/-- The parts of a number's text after the sign. -/
structure Literal where
  whole : List Nat
  fraction : Option (List Nat)
  exponent : Option (Bool × List Nat)

/-- The value of a number: a whole number that fits, else a double.  `-0` is a double.  The
significand is as many leading digits as fit 64 bits; it is rounded first and scaled then. -/
def Literal.value (negative : Bool) (l : Literal) : Except Fault Number :=
  let (significand, used) := collect 0 0 l.whole
  let dropped := l.whole.length - used
  let double (significand : Nat) (exponent : Int) : Except Fault Number :=
    match scale (Binary64.ofNat significand) exponent 4 with
    | some x => .ok (.double (if negative then x.neg else x))
    | none => .error .malformed
  match l.fraction, l.exponent with
  | none, none =>
    if dropped = 0 then
      if negative then
        if significand = 0 || 0x8000000000000000 < significand then
          .ok (.double (Binary64.ofNat significand).neg)
        else .ok (.int (-(significand : Int)))
      else .ok (.int significand)
    else double significand dropped
  | fraction, exponent =>
    let (significand, places) := collect significand 0 (fraction.getD [])
    let start : Int := (dropped : Int) - places
    match exponent with
    | none => double significand start
    | some (negativeExponent, ds) =>
      let e : Nat := ds.foldl (fun n d ↦ n * 10 + d) 0
      if 0x80000000 ≤ e && significand = 0 then
        .ok (.double (if negative then Binary64.zero.neg else Binary64.zero))
      else double significand (if negativeExponent then start - e else start + e)

/-- A number of which the digits due next are missing. -/
def missingDigits (rest : List Text.Symbol) : Lexeme Number :=
  ⟨.error (if rest.isEmpty then .eof else .malformed), some .malformed⟩

/-- A number whose last digits are the next ones of `rest`: what it reads as, and the text after
it. -/
def endingInDigits (value : List Nat → Except Fault Number) (rest : List Text.Symbol) :
    Lexeme Number × List Text.Symbol :=
  match leadingDigits rest with
  | [] => (missingDigits rest, rest)
  | ds => (⟨value ds, none⟩, afterDigits rest)

def readExponent (negative : Bool) (l : Literal) :
    List Text.Symbol → Lexeme Number × List Text.Symbol
  | .char c :: rest =>
    let value (sign : Bool) (ds : List Nat) :=
      Literal.value negative { l with exponent := some (sign, ds) }
    if c = 'e' || c = 'E' then
      match rest with
      | .char '+' :: r => endingInDigits (value false) r
      | .char '-' :: r => endingInDigits (value true) r
      | r => endingInDigits (value false) r
    else (⟨l.value negative, none⟩, .char c :: rest)
  | rest => (⟨l.value negative, none⟩, rest)

/-- Read a number after its sign.  A leading zero stands alone before the point. -/
def readNumber (negative : Bool) (text : List Text.Symbol) : Lexeme Number × List Text.Symbol :=
  match leadingDigits text with
  | [] => (missingDigits text, afterDigits text)
  | 0 :: _ :: _ => (.broken .malformed, afterDigits text)
  | whole =>
    match afterDigits text with
    | .char '.' :: r =>
      match leadingDigits r with
      | [] => (missingDigits r, r)
      | ds => readExponent negative ⟨whole, some ds, none⟩ (afterDigits r)
    | r => readExponent negative ⟨whole, none, none⟩ r

theorem length_endingInDigits_le (value : List Nat → Except Fault Number)
    (rest : List Text.Symbol) : (endingInDigits value rest).2.length ≤ rest.length := by
  unfold endingInDigits
  split
  · exact Nat.le_refl _
  · exact length_afterDigits_le rest

theorem length_readExponent_le (negative : Bool) (l : Literal) (text : List Text.Symbol) :
    (readExponent negative l text).2.length ≤ text.length := by
  unfold readExponent
  split
  · dsimp only
    split
    · split <;>
        exact Nat.le_trans (length_endingInDigits_le _ _) (by simp only [List.length_cons]; omega)
    · exact Nat.le_refl _
  · exact Nat.le_refl _

theorem length_readNumber_le (negative : Bool) (text : List Text.Symbol) :
    (readNumber negative text).2.length ≤ (afterDigits text).length := by
  unfold readNumber
  split
  · exact Nat.le_refl _
  · exact Nat.le_refl _
  · split
    next r h =>
      rw [h, List.length_cons]
      split
      · exact Nat.le_succ _
      · exact Nat.le_trans (length_readExponent_le _ _ _)
          (Nat.le_trans (length_afterDigits_le r) (Nat.le_succ _))
    next => exact length_readExponent_le _ _ _

/-! ### Strings -/

/-- A unit of a string's text: a character, a 16-bit code given by an escape, or stray bytes. -/
inductive StringUnit where
  | char (c : Char)
  | code (n : Nat)
  | stray
  deriving DecidableEq, Repr

def hexValue? (s : Text.Symbol) : Option Nat :=
  match s with
  | .char c =>
    if c.isDigit then some (c.toNat - 48)
    else if 'a' ≤ c && c ≤ 'f' then some (c.toNat - 87)
    else if 'A' ≤ c && c ≤ 'F' then some (c.toNat - 55)
    else none
  | .stray _ => none

def hexCode? (a b c d : Text.Symbol) : Option Nat := do
  return (((← hexValue? a) * 16 + (← hexValue? b)) * 16 + (← hexValue? c)) * 16 + (← hexValue? d)

def simpleEscape? (c : Char) : Option Char :=
  if c = '"' || c = '\\' || c = '/' then some c
  else if c = 'b' then some '\x08'
  else if c = 'f' then some '\x0c'
  else if c = 'n' then some '\n'
  else if c = 'r' then some '\r'
  else if c = 't' then some '\t'
  else none

/-- The fault of an escape whose four digits are not there: it is the end of the text that is
wrong if fewer than four bytes are left. -/
def hexFault (rest : List Text.Symbol) : Fault :=
  if (rest.take 4).foldl (fun n s ↦ n + s.size) 0 < 4 then .eof else .malformed

/-- The units of a string up to its closing quote, latest first, with the fault that ends them if
there is one, and the rest of the text. -/
def stringUnits (acc : List StringUnit) :
    List Text.Symbol → List StringUnit × Option Fault × List Text.Symbol
  | [] => (acc, some .eof, [])
  | .stray _ :: rest => stringUnits (.stray :: acc) rest
  | .char '\\' :: [] => (acc, some .eof, [])
  | .char '\\' :: .stray _ :: rest => (acc, some .malformed, rest)
  | .char '\\' :: .char 'u' :: a :: b :: c :: d :: rest =>
    match hexCode? a b c d with
    | some n => stringUnits (.code n :: acc) rest
    | none => (acc, some (hexFault (a :: b :: c :: d :: rest)), rest)
  | .char '\\' :: .char e :: rest =>
    match simpleEscape? e with
    | some c => stringUnits (.char c :: acc) rest
    | none => (acc, some (if e = 'u' then hexFault rest else .malformed), rest)
  | .char c :: rest =>
    if c = '"' then (acc, none, rest)
    else if c.toNat < 0x20 then (acc, some .malformed, rest)
    else stringUnits (.char c :: acc) rest

def isHighSurrogate (n : Nat) : Bool := 0xD800 ≤ n && n ≤ 0xDBFF

def isLowSurrogate (n : Nat) : Bool := 0xDC00 ≤ n && n ≤ 0xDFFF

/-- Put the units of a string together.  `ending` is the fault that follows the units.  A
surrogate without its partner is a fault where it stands, stray bytes are one at the end. -/
def joinUnits (ending : Option Fault) (stray : Bool) (acc : List Char) :
    List StringUnit → Except Fault String
  | [] =>
    match ending with
    | some f => .error f
    | none => if stray then .error .malformed else .ok (String.ofList acc.reverse)
  | .char c :: rest => joinUnits ending stray (c :: acc) rest
  | .stray :: rest => joinUnits ending true acc rest
  | .code n :: rest =>
    if isLowSurrogate n then .error .malformed
    else if isHighSurrogate n then
      match rest with
      | .code m :: rest' =>
        if isLowSurrogate m then
          joinUnits ending stray
            (Char.ofNat ((n - 0xD800) * 0x400 + (m - 0xDC00) + 0x10000) :: acc) rest'
        else .error .malformed
      | [] => .error (ending.getD .malformed)
      | _ => .error .malformed
    else joinUnits ending stray (Char.ofNat n :: acc) rest

def readString (rest : List Text.Symbol) : Lexeme String × List Text.Symbol :=
  let (units, ending, r) := stringUnits [] rest
  (⟨joinUnits ending false [] units.reverse, ending⟩, r)

theorem length_stringUnits_le (acc : List StringUnit) (text : List Text.Symbol) :
    (stringUnits acc text).2.2.length ≤ text.length := by
  fun_induction stringUnits acc text <;> simp_all only [List.length_cons, List.length_nil] <;> omega

theorem length_readString_le (text : List Text.Symbol) :
    (readString text).2.length ≤ text.length :=
  length_stringUnits_le [] text

/-! ### The whole text -/

/-- The fault where `rest` does not begin with `letters`. -/
def wordFault : List Char → List Text.Symbol → Option Fault
  | [], _ => none
  | _ :: _, [] => some .eof
  | c :: cs, s :: rest => if s = .char c then wordFault cs rest else some .malformed

def word (letters : List Char) (t : Token) (rest : List Text.Symbol) : Token × List Text.Symbol :=
  match wordFault letters rest with
  | none => (t, rest.drop letters.length)
  | some f => (.brokenWord f, [])

/-- Spaces, tabs and the two line characters stand between tokens. -/
def isSpace (c : Char) : Bool := c = ' ' || c = '\n' || c = '\t' || c = '\r'

def mark? (c : Char) : Option Token :=
  if c = '[' then some .beginArray
  else if c = ']' then some .endArray
  else if c = '\x7b' then some .beginObject
  else if c = '\x7d' then some .endObject
  else if c = ',' then some .comma
  else if c = ':' then some .colon
  else none

/-- The words, by their first letter: the other letters and the token. -/
def word? (c : Char) : Option (List Char × Token) :=
  if c = 'n' then some (['u', 'l', 'l'], .null)
  else if c = 't' then some (['r', 'u', 'e'], .bool true)
  else if c = 'f' then some (['a', 'l', 's', 'e'], .bool false)
  else none

/-- A number or a string that begins with `c`, or junk. -/
def lexemeAt (c : Char) (rest : List Text.Symbol) : Token × List Text.Symbol :=
  if c = '"' then
    (.string (readString rest).1, (readString rest).1.after (readString rest).2)
  else if c = '-' then
    (.number (readNumber true rest).1, (readNumber true rest).1.after (readNumber true rest).2)
  else if c.isDigit then
    (.number (readNumber false (.char c :: rest)).1,
      (readNumber false (.char c :: rest)).1.after (readNumber false (.char c :: rest)).2)
  else (.junk, [])

/-- The token that begins with the character `c`, and the rest after it; no rest after a token
that ends the reading. -/
def tokenAt (c : Char) (rest : List Text.Symbol) : Token × List Text.Symbol :=
  match mark? c, word? c with
  | some t, _ => (t, rest)
  | none, some (letters, t) => word letters t rest
  | none, none => lexemeAt c rest

theorem length_word_le (letters : List Char) (t : Token) (rest : List Text.Symbol) :
    (word letters t rest).2.length ≤ rest.length := by
  unfold word
  split
  · simp
  · exact Nat.zero_le _

theorem afterDigits_cons {c : Char} (h : c.isDigit) (rest : List Text.Symbol) :
    afterDigits (.char c :: rest) = afterDigits rest := by
  simp [afterDigits, digit?, h]

theorem length_lexemeAt_le (c : Char) (rest : List Text.Symbol) :
    (lexemeAt c rest).2.length ≤ rest.length := by
  unfold lexemeAt
  split
  · exact Nat.le_trans (Lexeme.length_after_le _ _) (length_readString_le rest)
  split
  · exact Nat.le_trans (Lexeme.length_after_le _ _)
      (Nat.le_trans (length_readNumber_le true rest) (length_afterDigits_le rest))
  split
  · next digit =>
    refine Nat.le_trans (Lexeme.length_after_le _ _)
      (Nat.le_trans (length_readNumber_le false _) ?_)
    rw [afterDigits_cons digit]
    exact length_afterDigits_le rest
  · exact Nat.zero_le _

/-- A token takes up its first character at least. -/
theorem length_tokenAt_le (c : Char) (rest : List Text.Symbol) :
    (tokenAt c rest).2.length ≤ rest.length := by
  unfold tokenAt
  split
  · exact Nat.le_refl _
  · exact length_word_le _ _ _
  · exact length_lexemeAt_le c rest

/-- The tokens of a text, latest first. -/
def tokensFrom (acc : List Token) : List Text.Symbol → List Token
  | [] => acc
  | .stray _ :: _ => .junk :: acc
  | .char c :: rest =>
    if isSpace c then tokensFrom acc rest
    else tokensFrom ((tokenAt c rest).1 :: acc) (tokenAt c rest).2
  termination_by text => text.length
  decreasing_by
    · exact Nat.lt_succ_self _
    · exact Nat.lt_succ_of_le (length_tokenAt_le c rest)

def tokens (text : List Text.Symbol) : List Token := (tokensFrom [] text).reverse

end Rollout.Json
