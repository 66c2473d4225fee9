import Rollout.CommandLine.Arguments
import Rollout.Settings.EnvFile
import Rollout.Settings.Load

/-!
# The commands of the program

`serve` runs the server; `graph` prints the transition table of a workflow.  `run` is what a call
of the program does, given the files and the environment that it finds.
-/

namespace Rollout.CommandLine

/-- What the program is asked to do. -/
inductive Command where
  | serve (config bind : Option String)
  | graph (mode : Mode) (target : Target) (airgap : Bool)
  deriving Repr

/-- What is wrong with a value that `parse` has to understand. -/
def parseFault (parse : String → Except String α) (value : String) : Option ValueFault :=
  match parse value with
  | .ok _ => none
  | .error reason => some (.invalid reason)

def serveOptions : List Switch :=
  [{ long := "config", short := some 'c', valueName := some "CONFIG"
     fault := fun v ↦ if v.isEmpty then some .empty else none },
    { long := "bind", valueName := some "BIND" }]

def graphOptions : List Switch :=
  [{ long := "mode", valueName := some "MODE", fault := parseFault Mode.parse },
    { long := "target", valueName := some "TARGET", fault := parseFault Target.parse },
    { long := "airgap" }]

def commandNames : List String := ["serve", "graph", "help"]

/-- Read the arguments after `help`, the name of a command at most. -/
def readHelp : List String → Stop
  | [] => .help
  | name :: more =>
    if commandNames.contains name then
      match more with
      | [] => .help
      | extra :: _ => .usage (.unknownCommand extra)
    else .usage (.unknownCommand name)

def parsedOr (parse : String → Except String α) (default : α) (value : Option String) : α :=
  match value.map parse with
  | some (.ok a) => a
  | _ => default

def Command.ofArguments : List String → Except Stop Command
  | [] => .error (.usage .noCommand)
  | "serve" :: args => do
    let r ← readArguments serveOptions args
    .ok (.serve (r.get? "config") (r.get? "bind"))
  | "graph" :: args => do
    let r ← readArguments graphOptions args
    .ok (.graph (parsedOr Mode.parse .install (r.get? "mode"))
      (parsedOr Target.parse .linux (r.get? "target")) (r.get? "airgap").isSome)
  | "help" :: args => .error (readHelp args)
  | ["--"] => .error (.usage .noCommand)
  | "--" :: name :: _ =>
    .error (.usage (if commandNames.contains name then .unexpectedArgument name
      else .unknownCommand name))
  | arg :: _ => do
    match arg.toList with
    | '-' :: '-' :: s => let _ ← Reading.readLong [helpSwitch] {} s
    | '-' :: c :: s => let _ ← Reading.readShort [helpSwitch] {} (c :: s)
    | _ => pure ()
    .error (.usage (.unknownCommand arg))

/-- How a call of the program ends. -/
structure Exit where
  code : Nat
  output : String := ""
  /-- What is written to the error stream. -/
  error : Option String := none
  deriving DecidableEq, Repr

def helpText : String :=
  "Install or upgrade an application and the cluster it runs on\n\n" ++
  "Usage: cluster-installer <COMMAND>\n\nCommands:\n" ++
  "  serve  Run the installer API until interrupted\n" ++
  "  graph  Print a workflow's transition table, one `target <- predecessors` line per state\n" ++
  "  help   Print this message or the help of the given subcommand(s)\n"

def graphText (target : Target) (airgap : Bool) : Mode → String
  | .install => (InstallState.table target airgap).describe InstallState.all
  | .upgrade => (UpgradeState.table target airgap).describe UpgradeState.all

def envFile : String := ".env"

/-- The settings that `serve` runs with, and the address to listen on.  The address given on the
command line replaces that of the settings only after these have been checked. -/
def serveSettings (files : List Settings.NamedText) (environment : List (String × String))
    (config bind : Option String) : Except String (Settings × Net.SocketAddress) := do
  let environment := match Settings.textAt? files envFile with
    | some text => EnvFile.load text environment
    | none => environment
  let s ← (Settings.load files config environment).mapError Settings.LoadError.message
  let s := match bind with
    | some text => { s with server.bind := text }
    | none => s
  let a ← s.address.mapError Settings.Problem.message
  .ok (s, a)

def Exit.failure (message : String) : Exit := { code := 1, error := some ("Error: " ++ message) }

/-- Carry out a command.  `serve` gets as far as the address, which there is nobody to listen
on. -/
def Command.run (files : List Settings.NamedText) (environment : List (String × String)) :
    Command → Exit
  | graph mode target airgap => { code := 0, output := graphText target airgap mode ++ "\n" }
  | serve config bind =>
    match serveSettings files environment config bind with
    | .error message => .failure message
    | .ok (_, a) => .failure ("Failed to bind API server to " ++ a.text)

def run (files : List Settings.NamedText) (environment : List (String × String))
    (args : List String) : Exit :=
  match Command.ofArguments args with
  | .ok c => c.run files environment
  | .error .help => { code := 0, output := helpText }
  | .error (.usage e) => { code := 2, error := e.message?.map ("error: " ++ ·) }

def filesToRead (args : List String) : List String :=
  match Command.ofArguments args with
  | .ok (.serve config _) =>
    let path := config.getD Settings.defaultFile
    [envFile, Settings.defaultFile, path] ++
      Settings.FileFormat.all.flatMap fun f ↦ f.extensions.map fun e ↦ path ++ "." ++ e
  | _ => []

end Rollout.CommandLine
