/-!
# UTF-8 with stray bytes

A byte stream is read as a list of symbols: characters, and runs of bytes that belong to no
character.  A run is the longest prefix of a well-formed character that the next byte does not
continue, or one byte that starts none; the *lossy* reading shows each run as U+FFFD.

Reading is one step per byte, so that a stream can be cut after any character and read in parts.
-/

namespace Rollout.Text

/-- What a stretch of bytes stands for. -/
inductive Symbol where
  | char (c : Char)
  | stray (bytes : List UInt8)
  deriving DecidableEq, Repr, Inhabited

namespace Symbol

def size : Symbol → Nat
  | char c => c.utf8Size
  | stray bytes => bytes.length

/-- The symbols of a text: its characters. -/
def ofString (s : String) : List Symbol := s.toList.map char

/-- The character shown for a symbol when stray bytes have to be shown too. -/
def shown : Symbol → Char
  | char c => c
  | stray _ => '\ufffd'

end Symbol

/-- The number of bytes in the character that `lead` starts; zero if it starts none. -/
def charLength (lead : UInt8) : Nat :=
  if lead < 0x80 then 1
  else if 0xC2 ≤ lead && lead ≤ 0xDF then 2
  else if 0xE0 ≤ lead && lead ≤ 0xEF then 3
  else if 0xF0 ≤ lead && lead ≤ 0xF4 then 4
  else 0

/-- Whether `b` may follow `pending`, the bytes so far of one character.  The byte after the lead
also rules out overlong forms, surrogates and code points above U+10FFFF. -/
def continues (pending : List UInt8) (b : UInt8) : Bool :=
  match pending with
  | [0xE0] => 0xA0 ≤ b && b ≤ 0xBF
  | [0xED] => 0x80 ≤ b && b ≤ 0x9F
  | [0xF0] => 0x90 ≤ b && b ≤ 0xBF
  | [0xF4] => 0x80 ≤ b && b ≤ 0x8F
  | _ => 0x80 ≤ b && b ≤ 0xBF

/-- The code point that the bytes of one character spell. -/
def codePoint : List UInt8 → Nat
  | [a] => a.toNat
  | [a, b] => (a.toNat % 32) * 64 + b.toNat % 64
  | [a, b, c] => ((a.toNat % 16) * 64 + b.toNat % 64) * 64 + c.toNat % 64
  | [a, b, c, d] => (((a.toNat % 8) * 64 + b.toNat % 64) * 64 + c.toNat % 64) * 64 + d.toNat % 64
  | _ => 0xFFFD

/-- A reading in progress: the symbols so far, latest first, and the bytes of a character that
has begun and is not complete. -/
structure Reading where
  symbols : List Symbol := []
  pending : List UInt8 := []
  deriving Repr

namespace Reading

/-- Give up on the character in progress. -/
def flush (r : Reading) : Reading :=
  match r.pending with
  | [] => r
  | p => ⟨.stray p :: r.symbols, []⟩

/-- Read `b` where a character may begin. -/
def start (r : Reading) (b : UInt8) : Reading :=
  match charLength b with
  | 0 => ⟨.stray [b] :: r.symbols, []⟩
  | 1 => ⟨.char (Char.ofNat b.toNat) :: r.symbols, []⟩
  | _ => ⟨r.symbols, [b]⟩

def step (r : Reading) (b : UInt8) : Reading :=
  match r.pending with
  | [] => r.start b
  | lead :: more =>
    if continues (lead :: more) b then
      let p := lead :: more ++ [b]
      if p.length = charLength lead then ⟨.char (Char.ofNat (codePoint p)) :: r.symbols, []⟩
      else ⟨r.symbols, p⟩
    else r.flush.start b

end Reading

def Symbol.ofBytes (bytes : List UInt8) : List Symbol :=
  (bytes.foldl Reading.step {}).flush.symbols.reverse

/-- The text shown for a byte stream: each stray run becomes U+FFFD. -/
def lossy (bytes : List UInt8) : String :=
  String.ofList ((Symbol.ofBytes bytes).map Symbol.shown)

def bytes (s : String) : List UInt8 := s.toUTF8.toList

end Rollout.Text
