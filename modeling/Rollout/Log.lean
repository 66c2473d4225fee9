/-!
# Bounded logs

A log keeps the end of everything that was logged: as much of it as fits, cut at a character.
It is a queue of characters in two lists, so that a line is added and an old one dropped without
going through the whole text.
-/

namespace Rollout

/-- The number of bytes that a log may hold. -/
def maxLogBytes : Nat := 65536

def utf8Size : List Char → Nat
  | [] => 0
  | c :: cs => c.utf8Size + utf8Size cs

/-- Drop characters from the front until `n` bytes are gone: the bytes that are gone, on top of
the `gone` before, and the other characters. -/
def dropBytes (n gone : Nat) : List Char → Nat × List Char
  | [] => (gone, [])
  | c :: cs => if n ≤ gone then (gone, c :: cs) else dropBytes n (gone + c.utf8Size) cs

/-- A line as it is logged: without the line breaks at its end, and with one. -/
def logLine (line : String) : List Char :=
  (line.toList.reverse.dropWhile (· == '\n')).reverse ++ ['\n']

/-- A bounded log: the oldest characters, then the others with the latest first. -/
structure Log where
  front : List Char := []
  back : List Char := []
  /-- The number of bytes. -/
  size : Nat := 0
  deriving DecidableEq, Repr, Inhabited

namespace Log

/-- The characters of a log, the oldest first. -/
def chars (l : Log) : List Char := l.front ++ l.back.reverse

/-- Put a text behind. -/
def push (l : Log) (cs : List Char) : Log :=
  ⟨l.front, cs.reverseAux l.back, l.size + utf8Size cs⟩

/-- Drop the characters that begin in the first `n` bytes. -/
def drop (l : Log) (n : Nat) : Log :=
  let (gone, front) := dropBytes n 0 l.front
  if n ≤ gone then ⟨front, l.back, l.size - gone⟩
  else
    let (gone, front) := dropBytes n gone l.back.reverse
    ⟨front, [], l.size - gone⟩

/-- Drop what does not fit. -/
def trim (l : Log) : Log := if maxLogBytes < l.size then l.drop (l.size - maxLogBytes) else l

def add (l : Log) (line : String) : Log := (l.push (logLine line)).trim

def text (l : Log) : String := String.ofList l.chars

end Log
end Rollout
