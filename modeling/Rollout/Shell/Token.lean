/-!
# The tokens of a shell command

A command line is cut into words and operators by an automaton that reads one character at a
time.  A word is a list of pieces: characters, and variables whose values stand in their place
later.  A piece remembers whether it was quoted.  This is part of the shell that the program is run
with; no result rests on it.
-/

namespace Rollout.Shell

inductive Piece where
  | char (c : Char) (quoted : Bool)
  | variable (name : String) (quoted : Bool)
  deriving DecidableEq, Repr

abbrev Word := List Piece

inductive Token where
  | word (w : Word)
  | operator (op : String)
  /-- A number right before a redirection. -/
  | descriptor (n : Nat)
  deriving DecidableEq, Repr

def operators : List String := [";", "&", "&&", "|", "||", "<", ">", ">>", ">&", "<&", "(", ")"]

inductive Mode where
  | plain
  | escaped
  | single
  | double
  | doubleEscaped
  | comment
  /-- After a dollar sign. -/
  | dollar (quoted : Bool)
  | name (read : List Char) (quoted : Bool)
  | braced (read : List Char) (quoted : Bool)
  | operator (op : String)
  deriving DecidableEq, Repr

/-- The automaton: its mode, the tokens, and the pieces of the word that has begun, both with the
latest first. -/
structure Lexer where
  mode : Mode := .plain
  tokens : List Token := []
  word : Option Word := none
  deriving Repr

namespace Lexer

def push (l : Lexer) (p : Piece) : Lexer := { l with word := some (p :: l.word.getD []) }

def goTo (l : Lexer) (mode : Mode) : Lexer := { l with mode := mode }

def endWord (l : Lexer) : Lexer :=
  match l.word with
  | some w => { l with tokens := .word w.reverse :: l.tokens, word := none }
  | none => l

def number? (w : Word) : Option Nat :=
  w.reverse.foldl (fun n p ↦ match n, p with
    | some n, .char c false => if c.isDigit then some (n * 10 + (c.toNat - 48)) else none
    | _, _ => none) (some 0)

/-- End the current word before an operator; digits before a redirection name a descriptor. -/
def endWordBefore (l : Lexer) (c : Char) : Lexer :=
  match l.word with
  | some (p :: w) =>
    if c = '<' || c = '>' then
      match number? (p :: w) with
      | some n => { l with tokens := .descriptor n :: l.tokens, word := none }
      | none => l.endWord
    else l.endWord
  | _ => l.endWord

def plain (l : Lexer) (c : Char) : Lexer :=
  let l := l.goTo .plain
  if c = ' ' || c = '\t' then l.endWord
  else if c = '\n' then
    let l := l.endWord
    { l with tokens := .operator ";" :: l.tokens }
  else if c = '#' && l.word.isNone then l.goTo .comment
  else if c = '\\' then l.goTo .escaped
  else if c = '\'' then { l with word := some (l.word.getD []), mode := .single }
  else if c = '"' then { l with word := some (l.word.getD []), mode := .double }
  else if c = '$' then l.goTo (.dollar false)
  else if operators.contains (String.singleton c) then
    (l.endWordBefore c).goTo (.operator (String.singleton c))
  else l.push (.char c false)

def double (l : Lexer) (c : Char) : Lexer :=
  let l := l.goTo .double
  if c = '"' then l.goTo .plain
  else if c = '\\' then l.goTo .doubleEscaped
  else if c = '$' then l.goTo (.dollar true)
  else l.push (.char c true)

def inside (l : Lexer) (quoted : Bool) (c : Char) : Lexer :=
  if quoted then l.double c else l.plain c

def isNameChar (c : Char) : Bool := c.isAlphanum || c = '_'

def isSign (c : Char) : Bool := ['$', '?', '#', '@', '*', '!', '-'].contains c

def pushVariable (l : Lexer) (read : List Char) (quoted : Bool) : Lexer :=
  l.push (.variable (String.ofList read.reverse) quoted)

def next (l : Lexer) (c : Char) : Lexer :=
  match l.mode with
  | .plain => l.plain c
  | .escaped => (if c = '\n' then l else l.push (.char c true)).goTo .plain
  | .single => if c = '\'' then l.goTo .plain else l.push (.char c true)
  | .double => l.double c
  | .doubleEscaped =>
    let l := l.goTo .double
    if c = '\n' then l
    else if ['$', '`', '"', '\\'].contains c then l.push (.char c true)
    else (l.push (.char '\\' true)).push (.char c true)
  | .comment => if c = '\n' then l.plain c else l
  | .dollar quoted =>
    if c = '\x7b' then l.goTo (.braced [] quoted)
    else if isSign c || c.isDigit then
      (l.pushVariable [c] quoted).goTo (if quoted then .double else .plain)
    else if isNameChar c then l.goTo (.name [c] quoted)
    else (l.push (.char '$' true)).inside quoted c
  | .name read quoted =>
    if isNameChar c then l.goTo (.name (c :: read) quoted)
    else (l.pushVariable read quoted).inside quoted c
  | .braced read quoted =>
    if c = '\x7d' then (l.pushVariable read quoted).goTo (if quoted then .double else .plain)
    else l.goTo (.braced (c :: read) quoted)
  | .operator op =>
    if operators.contains (op.push c) then l.goTo (.operator (op.push c))
    else { l with tokens := .operator op :: l.tokens }.plain c

/-- The tokens at the end of the text; none if a quote is open. -/
def finish (l : Lexer) : Option (List Token) :=
  match l.mode with
  | .plain | .escaped => some l.endWord.tokens.reverse
  | .comment => some l.tokens.reverse
  | .operator op => some (.operator op :: l.tokens).reverse
  | .dollar false => some (l.push (.char '$' true)).endWord.tokens.reverse
  | .name read false => some (l.pushVariable read false).endWord.tokens.reverse
  | _ => none

end Lexer

def tokens? (line : String) : Option (List Token) := (line.toList.foldl .next ({} : Lexer)).finish

end Rollout.Shell
