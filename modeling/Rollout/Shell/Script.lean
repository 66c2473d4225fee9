import Rollout.Shell.Token

/-!
# The structure of a shell command

A script is a sequence of lists; a list joins pipelines by *and* and *or*; a pipeline joins simple
commands.  A simple command has words and redirections.  This is part of the shell that the program
is run with; no result rests on it.
-/

namespace Rollout.Shell

inductive Redirection where
  /-- The descriptor is read from or written to a file. -/
  | file (descriptor : Nat) (path : Word)
  /-- The descriptor becomes a copy of another one. -/
  | copy (descriptor : Nat) (source : Word)
  deriving DecidableEq, Repr

structure SimpleCommand where
  words : List Word := []
  redirections : List Redirection := []
  deriving DecidableEq, Repr

/-- Commands that read what the one before them writes. -/
structure Pipeline where
  negated : Bool := false
  commands : List SimpleCommand
  deriving DecidableEq, Repr

inductive Condition where
  | always
  | ifSucceeded
  | ifFailed
  deriving DecidableEq, Repr

/-- The pipelines of a script in their order, each with its condition. -/
abbrev Script := List (Condition × Pipeline)

def simpleCommand? : List Token → Option SimpleCommand
  | [] => some {}
  | .word w :: more => (simpleCommand? more).map fun c ↦ { c with words := w :: c.words }
  | .descriptor n :: .operator op :: .word w :: more => redirect n op w more
  | .operator op :: .word w :: more => redirect (if op.startsWith "<" then 0 else 1) op w more
  | _ => none
where
  /-- A redirection before the rest of a command. -/
  redirect (n : Nat) (op : String) (w : Word) (more : List Token) : Option SimpleCommand :=
    match op with
    | ">" | ">>" | "<" => (simpleCommand? more).map fun c ↦
        { c with redirections := .file n w :: c.redirections }
    | ">&" | "<&" => (simpleCommand? more).map fun c ↦
        { c with redirections := .copy n w :: c.redirections }
    | _ => none

def cutAt (op : String) : List Token → List (List Token)
  | [] => [[]]
  | t :: more =>
    match cutAt op more with
    | [] => [[t]]
    | part :: parts => if t = .operator op then [] :: part :: parts else (t :: part) :: parts

def isBang : Token → Bool
  | .word [.char '!' false] => true
  | _ => false

def pipeline? (condition : Condition) (tokens : List Token) : Option (Condition × Pipeline) :=
  let negated := (tokens.head?.map isBang).getD false
  let parts := cutAt "|" (if negated then tokens.tail else tokens)
  if parts.any List.isEmpty then none
  else (parts.mapM simpleCommand?).map fun commands ↦ (condition, ⟨negated, commands⟩)

def cutList (condition : Condition) : List Token → List (Condition × List Token)
  | [] => [(condition, [])]
  | .operator "&&" :: more => (condition, []) :: cutList .ifSucceeded more
  | .operator "||" :: more => (condition, []) :: cutList .ifFailed more
  | t :: more =>
    match cutList condition more with
    | [] => [(condition, [t])]
    | (c, part) :: parts => (c, t :: part) :: parts

/-- Read a script; empty lists are left out. -/
def script? (tokens : List Token) : Option Script := do
  let lists := (cutAt ";" tokens).filter (!·.isEmpty)
  let parts ← lists.mapM fun list ↦ (cutList .always list).mapM fun p ↦ pipeline? p.1 p.2
  return parts.flatten

end Rollout.Shell
