import Rollout.Text.Front

/-!
# Reading arguments

A command takes options: switches, which stand alone, and options with a value.  A value follows
its option as the next argument, after an equals sign, or directly after the letter of a short
option.  An option is settled when the next one begins or the arguments end; only then its value
is looked at.
-/

namespace Rollout.CommandLine

/-- What is wrong with a value. -/
inductive ValueFault where
  /-- It may not be empty. -/
  | empty
  | invalid (reason : String)

/-- An option of a command. -/
structure Switch where
  long : String
  short : Option Char := none
  /-- The name of its value; none if it stands alone. -/
  valueName : Option String := none
  /-- What is wrong with a value, if anything. -/
  fault : String → Option ValueFault := fun _ ↦ none

def Switch.text (o : Switch) : String :=
  "--" ++ o.long ++ match o.valueName with
    | some name => " <" ++ name ++ ">"
    | none => ""

/-- Why arguments are not understood. -/
inductive UsageError where
  /-- There is no command. -/
  | noCommand
  | unknownCommand (text : String)
  | unexpectedArgument (text : String)
  /-- A switch was given a value. -/
  | unexpectedValue (option value : String)
  | missingValue (option : String)
  | repeated (option : String)
  | invalidValue (option value reason : String)
  deriving DecidableEq, Repr

/-- The text of an error; the lack of a command is met with help only. -/
def UsageError.message? : UsageError → Option String
  | noCommand => none
  | unknownCommand text => some ("unrecognized subcommand '" ++ text ++ "'")
  | unexpectedArgument text => some ("unexpected argument '" ++ text ++ "' found")
  | unexpectedValue option value =>
    some ("unexpected value '" ++ value ++ "' for '" ++ option ++ "' found; no more were expected")
  | missingValue option =>
    some ("a value is required for '" ++ option ++ "' but none was supplied")
  | repeated option => some ("the argument '" ++ option ++ "' cannot be used multiple times")
  | invalidValue option value reason =>
    some ("invalid value '" ++ value ++ "' for '" ++ option ++ "': " ++ reason)

/-- Why reading stops before the command can be carried out. -/
inductive Stop where
  /-- Help is wanted. -/
  | help
  | usage (e : UsageError)

/-- The options read so far. -/
structure Reading where
  /-- The options that are settled, with their values. -/
  settled : List (String × String) := []
  /-- The option that is still open, with its value if it has been read. -/
  pending : Option (Switch × Option String) := none

def helpSwitch : Switch := { long := "help", short := some 'h' }

def Reading.get? (r : Reading) (long : String) : Option String :=
  (r.settled.find? (·.1 == long)).map (·.2)

def Reading.give (r : Reading) (o : Switch) (value : Option String) : Except Stop Reading :=
  let refuse (e : UsageError) : Except Stop Reading := .error (.usage e)
  if o.long = helpSwitch.long then .error .help
  else if o.valueName.isSome && value.isNone then refuse (.missingValue o.text)
  else if (r.get? o.long).isSome then refuse (.repeated o.text)
  else
    match value.bind o.fault with
    | some .empty => refuse (.missingValue o.text)
    | some (.invalid reason) => refuse (.invalidValue o.text (value.getD "") reason)
    | none => .ok { settled := (o.long, value.getD "") :: r.settled }

def Reading.settle (r : Reading) : Except Stop Reading :=
  match r.pending with
  | none => .ok r
  | some (o, value) => Reading.give { r with pending := none } o value

/-- Begin the option `o`, with the value attached to it if there is one. -/
def Reading.start (r : Reading) (o : Switch) (attached : Option String) : Except Stop Reading := do
  match o.valueName, attached with
  | none, some v => .error (.usage (.unexpectedValue o.text v))
  | none, none => (← r.settle).give o none
  | some _, some v => (← r.settle).give o (some v)
  | some _, none => .ok { ← r.settle with pending := some (o, none) }

def Reading.readShort (options : List Switch) (r : Reading) : List Char → Except Stop Reading
  | [] => .ok r
  | c :: rest => do
    match options.find? (·.short == some c) with
    | none => .error (.usage (.unexpectedArgument (String.ofList ['-', c])))
    | some o =>
      if o.valueName.isNone then (← r.start o none).readShort options rest
      else
        match rest with
        | [] => r.start o none
        | '=' :: value => r.start o (some (String.ofList value))
        | value => r.start o (some (String.ofList value))

def Reading.readLong (options : List Switch) (r : Reading) (s : List Char) : Except Stop Reading :=
  let name := String.ofList (s.takeWhile (· ≠ '='))
  let attached := match s.dropWhile (· ≠ '=') with
    | [] => none
    | _ :: value => some (String.ofList value)
  match options.find? (·.long == name) with
  | none => .error (.usage (.unexpectedArgument ("--" ++ name)))
  | some o => r.start o attached

def Reading.readAll (options : List Switch) (r : Reading) : List String → Except Stop Reading
  | [] => r.settle
  | arg :: more => do
    match arg.toList, r.pending with
    | ['-', '-'], _ =>
      match more with
      | [] => r.settle
      | extra :: _ => .error (.usage (.unexpectedArgument extra))
    | '-' :: '-' :: s, _ => (← r.readLong options s).readAll options more
    | '-' :: c :: s, _ => (← r.readShort options (c :: s)).readAll options more
    | _, some (o, none) => Reading.readAll options { r with pending := some (o, some arg) } more
    | _, _ => .error (.usage (.unexpectedArgument arg))

def readArguments (options : List Switch) (args : List String) : Except Stop Reading :=
  Reading.readAll (helpSwitch :: options) {} args

end Rollout.CommandLine
