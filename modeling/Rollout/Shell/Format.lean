import Rollout.Text.Utf8

/-!
# Formatted output

The format of `printf`: characters, escapes behind a backslash, and conversions behind a percent
sign, each of which takes an argument.  A format with conversions is used again until no argument
is left.  This is part of the shell that the program is run with; no result rests on it.
-/

namespace Rollout.Shell

def byte (c : Char) : UInt8 := UInt8.ofNat c.toNat

def octal? (b : UInt8) : Option Nat := if 48 ≤ b && b ≤ 55 then some (b.toNat - 48) else none

def escape? (b : UInt8) : Option UInt8 :=
  if b = byte 'n' then some 10
  else if b = byte 't' then some 9
  else if b = byte 'r' then some 13
  else if b = byte 'a' then some 7
  else if b = byte 'b' then some 8
  else if b = byte 'f' then some 12
  else if b = byte 'v' then some 11
  else if b = byte '\\' then some 92
  else none

/-- Replace escapes: letters, and up to three octal digits. -/
def unescape : List UInt8 → List UInt8
  | [] => []
  | 92 :: a :: b :: c :: more =>
    match octal? a, octal? b, octal? c with
    | some x, some y, some z => UInt8.ofNat (x * 64 + y * 8 + z) :: unescape more
    | some x, some y, none => UInt8.ofNat (x * 8 + y) :: unescape (c :: more)
    | some x, none, _ => UInt8.ofNat x :: unescape (b :: c :: more)
    | none, _, _ =>
      match escape? a with
      | some e => e :: unescape (b :: c :: more)
      | none => 92 :: unescape (a :: b :: c :: more)
  | [92, a, b] =>
    match octal? a, octal? b with
    | some x, some y => [UInt8.ofNat (x * 8 + y)]
    | some x, none => UInt8.ofNat x :: unescape [b]
    | none, _ =>
      match escape? a with
      | some e => e :: unescape [b]
      | none => 92 :: unescape [a, b]
  | [92, a] =>
    match octal? a, escape? a with
    | some x, _ => [UInt8.ofNat x]
    | none, some e => [e]
    | none, none => [92, a]
  | b :: more => b :: unescape more

inductive FormatPart where
  | bytes (bs : List UInt8)
  | conversion (kind : Char)
  deriving DecidableEq, Repr

def FormatPart.addByte (b : UInt8) : List FormatPart → List FormatPart
  | bytes bs :: more => bytes (b :: bs) :: more
  | parts => bytes [b] :: parts

def formatParts : List UInt8 → List FormatPart
  | [] => []
  | 37 :: 37 :: more => FormatPart.addByte 37 (formatParts more)
  | 37 :: k :: more => .conversion (Char.ofNat k.toNat) :: formatParts more
  | 92 :: b :: more => FormatPart.addByte 92 (FormatPart.addByte b (formatParts more))
  | b :: more => FormatPart.addByte b (formatParts more)

def leadingNat (arg : List UInt8) : Nat :=
  (arg.takeWhile fun b ↦ 48 ≤ b && b ≤ 57).foldl (fun n b ↦ n * 10 + (b.toNat - 48)) 0

def integer (arg : List UInt8) : Int :=
  match arg with
  | 45 :: more => -(leadingNat more : Int)
  | 43 :: more => leadingNat more
  | arg => leadingNat arg

def convert (kind : Char) (arg : List UInt8) : List UInt8 :=
  if kind = 's' then arg
  else if kind = 'b' then unescape arg
  else if kind = 'c' then arg.take 1
  else if kind = 'o' then Text.bytes (String.ofList (Nat.toDigits 8 (integer arg).toNat))
  else if kind = 'x' then Text.bytes (String.ofList (Nat.toDigits 16 (integer arg).toNat))
  else Text.bytes (toString (integer arg))

def formatOnce : List FormatPart → List (List UInt8) → List UInt8 × List (List UInt8)
  | [], args => ([], args)
  | .bytes bs :: more, args =>
    let (out, rest) := formatOnce more args
    (unescape bs ++ out, rest)
  | .conversion kind :: more, args =>
    let (out, rest) := formatOnce more args.tail
    (convert kind (args.headD []) ++ out, rest)

/-- Use a format at most `fuel` times more. -/
def formatAll (parts : List FormatPart) : Nat → List (List UInt8) → List UInt8
  | 0, args => (formatOnce parts args).1
  | fuel + 1, args =>
    let (out, rest) := formatOnce parts args
    if rest.isEmpty || rest.length = args.length then out else out ++ formatAll parts fuel rest

def format (fmt : List UInt8) (args : List (List UInt8)) : List UInt8 :=
  formatAll (formatParts fmt) args.length args

end Rollout.Shell
