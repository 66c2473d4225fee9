import Rollout.Preflight
import Rollout.Text.Blank
import Rollout.Text.Utf8

/-!
# What a command leaves behind

The output of a command is read line by line.  Bytes that are no UTF-8 are shown as U+FFFD.  A
line loses its carriage returns and its line feed at the end; a last line without a line feed
counts.  A command that checks something reports in JSON, or by its exit status alone.
-/

namespace Rollout

inductive ExitStatus where
  | exited (code : Nat)
  | signalled (number : Nat) (dumped : Bool)
  deriving DecidableEq, Repr

namespace ExitStatus

def isSuccess : ExitStatus → Bool
  | exited code => code == 0
  | signalled .. => false

/-- The names of the standard signals, from the first one on. -/
def signalNames : List String :=
  ["SIGHUP", "SIGINT", "SIGQUIT", "SIGILL", "SIGTRAP", "SIGABRT", "SIGBUS", "SIGFPE", "SIGKILL",
    "SIGUSR1", "SIGSEGV", "SIGUSR2", "SIGPIPE", "SIGALRM", "SIGTERM", "SIGSTKFLT", "SIGCHLD",
    "SIGCONT", "SIGSTOP", "SIGTSTP", "SIGTTIN", "SIGTTOU", "SIGURG", "SIGXCPU", "SIGXFSZ",
    "SIGVTALRM", "SIGPROF", "SIGWINCH", "SIGIO", "SIGPWR", "SIGSYS"]

/-- The name of a signal; real-time signals have none. -/
def signalName? : Nat → Option String
  | 0 => none
  | n + 1 => signalNames[n]?

/-- The text of an exit status. -/
def text : ExitStatus → String
  | exited code => "exit status: " ++ toString code
  | signalled n dumped =>
    "signal: " ++ toString n ++ (signalName? n).elim "" (fun name ↦ " (" ++ name ++ ")") ++
      if dumped then " (core dumped)" else ""

example : (signalled 11 true).text = "signal: 11 (SIGSEGV) (core dumped)" := by decide +kernel

end ExitStatus

namespace Steps

def lineFeed : UInt8 := 10

def addByte (b : UInt8) : List (List UInt8) → List (List UInt8)
  | [] => [[b]]
  | piece :: more => if b = lineFeed then [b] :: piece :: more else (b :: piece) :: more

/-- The pieces of a stream, each but the last ending in a line feed; none is empty. -/
def pieces (stream : List UInt8) : List (List UInt8) := stream.foldr addByte []

def isLineEnd (c : Char) : Bool := c = '\n' || c = '\r'

def lineOf (piece : List UInt8) : String := Text.trimRight isLineEnd (Text.lossy piece)

def lines (stream : List UInt8) : List String := (pieces stream).map lineOf

def endedLines (stream : List UInt8) : List String :=
  ((pieces stream).filter fun p ↦ p.getLast? = some lineFeed).map lineOf

/-- Everything that was read from a stream: its lines, each with a line feed. -/
def drained (stream : List UInt8) : String := String.join ((lines stream).map (· ++ "\n"))

/-- What a command wrote, and how it ended. -/
structure CommandOutput where
  status : ExitStatus
  stdout : List UInt8 := []
  stderr : List UInt8 := []
  deriving DecidableEq, Repr

/-- The report that a command printed. -/
def reported? (o : CommandOutput) : Option PreflightOutput :=
  (PreflightOutput.decoder.fromText (Text.trim (drained o.stdout))).toOption

def lastLine (o : CommandOutput) : String :=
  (((lines o.stdout ++ lines o.stderr).reverse).find? fun l ↦ !Text.allBlank l).getD "no output"

/-- The result of the checks that a command made: its report, or else one check that passed or
failed as the command did. -/
def checks (title : String) (o : CommandOutput) : PreflightOutput :=
  match reported? o with
  | some report => report
  | none =>
    if o.status.isSuccess then { pass := [⟨title, "Checks passed"⟩] }
    else { fail := [⟨title, "Checks failed with " ++ o.status.text ++ ": " ++ lastLine o⟩] }

end Steps
end Rollout
