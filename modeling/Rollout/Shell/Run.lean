import Rollout.Shell.Format
import Rollout.Shell.Script
import Rollout.Steps.Command

/-!
# Running a shell command

A small shell with the programs that step commands are made of.  It keeps a clock, on which only
`sleep` takes time, and notes for everything that is written when it was written, so that a
command can be cut off at any moment.

The shell only serves to run the program where there is no other one.  No result rests on it:
results on steps hold whatever their commands do.
-/

namespace Rollout.Shell

/-- A text of the shell; it may hold any bytes. -/
abbrev Bytes := List UInt8

inductive Sink where
  | stdout
  | stderr
  | pipe
  | null
  deriving DecidableEq, Repr

structure Chunk where
  time : Nat
  sink : Sink
  bytes : Bytes
  deriving DecidableEq, Repr

/-- The state of a shell.  Times are in milliseconds. -/
structure Interpreter where
  name : String
  directory : String
  bindings : List (String × Bytes)
  clock : Nat := 0
  /-- What was written, the latest first. -/
  written : List Chunk := []
  lastCode : Nat := 0
  ended : Option ExitStatus := none
  deriving Repr

/-- What a command has to do with the descriptors. -/
structure Channels where
  input : Bytes := []
  output : Sink := .stdout
  errors : Sink := .stderr
  deriving Repr

def processNumber : String := "4000"

namespace Interpreter

def write (s : Interpreter) (sink : Sink) (bytes : Bytes) : Interpreter :=
  if bytes.isEmpty || sink = .null then s
  else { s with written := ⟨s.clock, sink, bytes⟩ :: s.written }

def exit (s : Interpreter) (code : Nat) : Interpreter := { s with lastCode := code % 256 }

def complain (s : Interpreter) (ch : Channels) (message : String) (code : Nat) : Interpreter :=
  (s.write ch.errors (Text.bytes (s.name ++ ": 1: " ++ message ++ "\n"))).exit code

def value (s : Interpreter) (name : String) : Bytes :=
  if name = "$" then Text.bytes processNumber
  else if name = "?" then Text.bytes (toString s.lastCode)
  else if name = "0" then Text.bytes s.name
  else if name = "#" then Text.bytes "0"
  else ((s.bindings.find? (·.1 == name)).map (·.2)).getD []

/-! ### Words -/

def isSeparator (b : UInt8) : Bool := b = 32 || b = 9 || b = 10

/-- The fields under construction: those that are complete, the latest first, and the last one. -/
structure Fields where
  complete : List Bytes := []
  open? : Option Bytes := none

def Fields.append (f : Fields) (bytes : Bytes) : Fields :=
  { f with open? := some (f.open?.getD [] ++ bytes) }

def Fields.cut (f : Fields) : Fields :=
  match f.open? with
  | some b => ⟨b :: f.complete, none⟩
  | none => f

/-- Put the value of a variable that is not quoted in: it is split at blanks. -/
def Fields.split (f : Fields) (bytes : Bytes) : Fields :=
  bytes.foldl (fun f b ↦ if isSeparator b then f.cut else f.append [b]) f

def expandPiece (s : Interpreter) (f : Fields) : Piece → Fields
  | .char c _ => f.append (Text.bytes (String.singleton c))
  | .variable name true => f.append (s.value name)
  | .variable name false => f.split (s.value name)

/-- The fields of a word.  A word of empty quotes is one empty field. -/
def expand (s : Interpreter) (w : Word) : List Bytes :=
  if w.isEmpty then [[]] else (w.foldl s.expandPiece {}).cut.complete.reverse

def expandOne (s : Interpreter) (w : Word) : Bytes :=
  (w.map fun
    | .char c _ => Text.bytes (String.singleton c)
    | .variable name _ => s.value name).flatten

def assignment? (w : Word) : Option (String × Word) :=
  let name := w.takeWhile fun
    | .char c false => Lexer.isNameChar c
    | _ => false
  let letters := name.filterMap fun
    | .char c _ => some c
    | _ => none
  match letters, w.drop name.length with
  | c :: _, .char '=' false :: rest =>
    if c.isDigit then none else some (String.ofList letters, rest)
  | _, _ => none

/-! ### Programs -/

def textOf (arg : Bytes) : String := Text.lossy arg

def milliseconds (arg : Bytes) : Nat :=
  let whole := leadingNat arg
  match arg.dropWhile fun b ↦ 48 ≤ b && b ≤ 57 with
  | 46 :: fraction => whole * 1000 + leadingNat ((fraction ++ [48, 48, 48]).take 3)
  | _ => whole * 1000

def signalOf? (option : String) : Option Nat :=
  match option.toNat? with
  | some n => some n
  | none =>
    let name := if option.startsWith "SIG" then option else "SIG" ++ option
    (ExitStatus.signalNames.idxOf? name).map (· + 1)

/-- The signals that a process passes over: those for children, for going on, for urgent data and
for the size of the window. -/
def passedOver : List Nat := [17, 18, 23, 28]

/-- Send a signal.  There is no other process than the shell. -/
def kill (s : Interpreter) (ch : Channels) (args : List String) : Interpreter :=
  let (signal, targets) := match args with
    | "-s" :: name :: more => (signalOf? name, more)
    | arg :: more =>
      if arg.startsWith "-" then (signalOf? (arg.drop 1).toString, more) else (some 15, args)
    | [] => (some 15, [])
  match signal with
  | none => s.complain ch "kill: bad signal" 1
  | some n =>
    if targets.contains processNumber then
      if n = 0 || passedOver.contains n then s.exit 0
      else { s with ended := some (.signalled n false) }
    else s.complain ch "kill: No such process" 1

/-- The number of an option that is given in one argument or in two. -/
def countOption? (letter : String) : List String → Option (Nat × List String)
  | [] => none
  | arg :: more =>
    if arg = "-" ++ letter then
      match more with
      | n :: more => n.toNat?.map (·, more)
      | [] => none
    else if arg.startsWith ("-" ++ letter) then (arg.drop 2).toString.toNat?.map (·, more)
    else none

def source (ch : Channels) (count : Nat) : List String → Option Bytes
  | [] | "-" :: _ => some (ch.input.take count)
  | "/dev/zero" :: _ => some (List.replicate count 0)
  | "/dev/null" :: _ => some []
  | _ => none

def firstLines (n : Nat) (bytes : Bytes) : Bytes := ((Steps.pieces bytes).take n).flatten

def lastLines (n : Nat) (bytes : Bytes) : Bytes :=
  let all := Steps.pieces bytes
  (all.drop (all.length - n)).flatten

/-- The characters of a set of `tr`; a dash between two stands for those in between. -/
def characterSet : Bytes → Bytes
  | a :: 45 :: b :: more =>
    ((List.range (b.toNat + 1 - a.toNat)).map fun i ↦ UInt8.ofNat (a.toNat + i)) ++
      characterSet more
  | a :: more => a :: characterSet more
  | [] => []

/-- Replace the characters of one set by those of another, of which the last one is repeated. -/
def transliterate (source target : Bytes) (b : UInt8) : UInt8 :=
  match source.reverse.findIdx? (· == b) with
  | none => b
  | some i => (target[source.length - 1 - i]?).getD (target.getLast?.getD b)

def filtered (s : Interpreter) (ch : Channels) (name : String) : Option Bytes → Interpreter
  | some bytes => (s.write ch.output bytes).exit 0
  | none => s.complain ch (name ++ ": No such file or directory") 1

def joinArgs (args : List Bytes) : Bytes := [(32 : UInt8)].intercalate args

def runProgram (s : Interpreter) (ch : Channels) (name : String) (args : List Bytes) :
    Interpreter :=
  let texts := args.map textOf
  match name with
  | ":" | "true" => s.exit 0
  | "false" => s.exit 1
  | "exit" =>
    let code := match args with
      | arg :: _ => leadingNat arg % 256
      | [] => s.lastCode
    { s with lastCode := code, ended := some (.exited code) }
  | "kill" => s.kill ch texts
  | "sleep" => { s with clock := s.clock + (args.map milliseconds).foldl (· + ·) 0 }.exit 0
  | "pwd" => (s.write ch.output (Text.bytes (s.directory ++ "\n"))).exit 0
  | "read" => s.exit (if ch.input.isEmpty then 1 else 0)
  | "printf" =>
    match args with
    | fmt :: more => (s.write ch.output (format fmt more)).exit 0
    | [] => s.complain ch "printf: usage: printf format [arg ...]" 2
  | "echo" =>
    match args with
    | [45, 110] :: more => (s.write ch.output (unescape (joinArgs more))).exit 0
    | args => (s.write ch.output (unescape (joinArgs args) ++ [10])).exit 0
  | "cat" => s.filtered ch name (source ch ch.input.length texts)
  | "head" =>
    match countOption? "c" texts, countOption? "n" texts with
    | some (n, files), _ => s.filtered ch name (source ch n files)
    | none, some (n, files) =>
      s.filtered ch name ((source ch ch.input.length files).map (firstLines n))
    | none, none => s.filtered ch name ((source ch ch.input.length texts).map (firstLines 10))
  | "tail" =>
    match countOption? "c" texts, countOption? "n" texts with
    | some (n, files), _ =>
      s.filtered ch name ((source ch ch.input.length files).map fun b ↦ b.drop (b.length - n))
    | none, some (n, files) =>
      s.filtered ch name ((source ch ch.input.length files).map (lastLines n))
    | none, none => s.filtered ch name ((source ch ch.input.length texts).map (lastLines 10))
  | "tr" =>
    match args with
    | [[45, 100], set] =>
      let set := characterSet (unescape set)
      (s.write ch.output (ch.input.filter fun b ↦ !set.contains b)).exit 0
    | [a, b] =>
      let a := characterSet (unescape a)
      let b := characterSet (unescape b)
      (s.write ch.output (ch.input.map (transliterate a b))).exit 0
    | _ => s.complain ch "tr: missing operand" 1
  | _ => s.complain ch (name ++ ": not found") 127

/-! ### Commands -/

def redirect (s : Interpreter) (ch : Channels) : Redirection → Channels
  | .file 0 _ => { ch with input := [] }
  | .file 1 _ => { ch with output := .null }
  | .file 2 _ => { ch with errors := .null }
  | .file _ _ => ch
  | .copy n w =>
    let sink := if s.expandOne w = [49] then ch.output
      else if s.expandOne w = [50] then ch.errors else .null
    if n = 1 then { ch with output := sink } else if n = 2 then { ch with errors := sink } else ch

def dropAssignments (words : List Word) : List Word :=
  words.dropWhile fun w ↦ (assignment? w).isSome

def assignments (s : Interpreter) (words : List Word) : List (String × Bytes) :=
  (words.takeWhile fun w ↦ (assignment? w).isSome).filterMap fun w ↦
    (assignment? w).map fun a ↦ (a.1, s.expandOne a.2)

def runSimple (s : Interpreter) (ch : Channels) (c : SimpleCommand) : Interpreter :=
  let ch := c.redirections.foldl s.redirect ch
  match (dropAssignments c.words).flatMap s.expand with
  | [] => { s with bindings := s.assignments c.words ++ s.bindings }.exit 0
  | name :: args =>
    let name := textOf name
    if name = "exec" then
      match args with
      | [] => s.exit 0
      | program :: args =>
        let s := s.runProgram ch (textOf program) args
        { s with ended := some (s.ended.getD (.exited s.lastCode)) }
    else s.runProgram ch name args

/-- The bytes that went into the pipe, and the shell without them. -/
def takePiped (s : Interpreter) : Bytes × Interpreter :=
  let piped := (s.written.filter (·.sink = .pipe)).reverse.flatMap (·.bytes)
  (piped, { s with written := s.written.filter (·.sink ≠ .pipe) })

/-- Run a command of a pipeline in a shell of its own: only its output, its code and its time
count. -/
def runApart (s : Interpreter) (ch : Channels) (c : SimpleCommand) : Interpreter :=
  let t := s.runSimple ch c
  let code := match t.ended with
    | some (.exited code) => code
    | some (.signalled n _) => 128 + n
    | none => t.lastCode
  { s with clock := t.clock, written := t.written, lastCode := code }

def runPiped (s : Interpreter) (input : Bytes) : List SimpleCommand → Interpreter
  | [] => s
  | [c] => s.runApart { input := input } c
  | c :: more =>
    let (piped, s) := (s.runApart { input := input, output := .pipe } c).takePiped
    s.runPiped piped more

def runPipeline (s : Interpreter) (p : Pipeline) : Interpreter :=
  let s := match p.commands with
    | [c] => s.runSimple {} c
    | commands => s.runPiped [] commands
  if p.negated then { s with lastCode := if s.lastCode = 0 then 1 else 0 } else s

def runScript (s : Interpreter) : Script → Interpreter
  | [] => s
  | (condition, p) :: more =>
    if s.ended.isSome then s
    else
      let wanted := match condition with
        | .always => true
        | .ifSucceeded => s.lastCode == 0
        | .ifFailed => s.lastCode != 0
      (if wanted then s.runPipeline p else s).runScript more

def runLine (s : Interpreter) (line : String) : Interpreter :=
  match (tokens? line).bind script? with
  | some script => s.runScript script
  | none => s.complain {} "Syntax error" 2

def status (s : Interpreter) : ExitStatus := s.ended.getD (.exited s.lastCode)

def writtenTo (s : Interpreter) (sink : Sink) (before : Option Nat) : Bytes :=
  ((s.written.filter fun c ↦ c.sink = sink && (match before with
    | some t => c.time < t
    | none => true)).reverse).flatMap (·.bytes)

end Interpreter

/-! ### Invocations -/

def shells : List String := ["sh", "/bin/sh", "/usr/bin/sh", "dash", "/bin/dash", "/usr/bin/dash"]

def trivialPrograms : List (String × Nat) :=
  [("true", 0), ("/bin/true", 0), ("/usr/bin/true", 0), ("false", 1), ("/bin/false", 1),
    ("/usr/bin/false", 1)]

def directories : List String :=
  ["/", "/tmp", "/usr", "/usr/bin", "/etc", "/var", "/var/tmp", "/dev", "/bin", "/home", "/root",
    "/opt", "/lib", "/proc", "/sys", "/run", "/srv", "/mnt", "."]

def maxArgumentBytes : Nat := 131071

def startFault? (i : Steps.Invocation) : Option String :=
  let parts := i.command :: i.environment.map fun e ↦ e.1 ++ "=" ++ e.2
  let names := i.shell :: i.workingDir.toList
  if (names ++ parts).any fun p ↦ p.toList.contains '\x00' then
    some "nul byte found in provided data"
  else if !(i.workingDir.toList.all fun d ↦ directories.contains d) then
    some "No such file or directory (os error 2)"
  else if shells.contains i.shell || trivialPrograms.any (·.1 == i.shell) then
    if parts.any fun p ↦ maxArgumentBytes < p.utf8ByteSize then
      some "Argument list too long (os error 7)"
    else none
  else some "No such file or directory (os error 2)"

inductive Cancellation where
  | never
  | before
  /-- So many milliseconds after the start. -/
  | after (time : Nat)
  deriving DecidableEq, Repr

def shellFor (i : Steps.Invocation) : Interpreter :=
  { name := i.shell, directory := i.workingDir.getD "/",
    bindings := i.environment.map fun e ↦ (e.1, Text.bytes e.2) }

def completed (i : Steps.Invocation) : Interpreter :=
  match trivialPrograms.find? (·.1 == i.shell) with
  | some (_, code) => (shellFor i).exit code
  | none => (shellFor i).runLine i.command

/-- Run an invocation, or what there is time for. -/
def run (cancellation : Cancellation) (i : Steps.Invocation) : Steps.Run :=
  match startFault? i with
  | some reason => .notStarted reason
  | none =>
    let s := completed i
    let full : Steps.Run :=
      .ended ⟨s.status, s.writtenTo .stdout none, s.writtenTo .stderr none⟩
    match cancellation with
    | .never => full
    | .before => .cancelled [] []
    | .after t =>
      if s.clock < t then full
      else .cancelled (s.writtenTo .stdout (some t)) (s.writtenTo .stderr (some t))

end Rollout.Shell
