import Rollout.CommandLine.Run

/-!
# The program

Reads the files and the environment variables that a call needs, and carries it out.
-/

namespace Rollout.CommandLine

/-- The text of a file, if it can be read. -/
def readText (path : String) : IO (Option String) := do
  try
    return some (← IO.FS.readFile path)
  catch _ =>
    return none

/-- The variables of an environment block: entries `NAME=value`, each ended by NUL. -/
def variablesOf (block : String) : List (String × String) :=
  (Text.split '\x00' block).filterMap fun entry ↦
    let s := entry.toList
    match s.dropWhile (· ≠ '=') with
    | [] => none
    | _ :: value => some (String.ofList (s.takeWhile (· ≠ '=')), String.ofList value)

end Rollout.CommandLine

open Rollout.CommandLine in
def main (args : List String) : IO UInt32 := do
  let environment := variablesOf ((← readText "/proc/self/environ").getD "")
  let files ← (filesToRead args).filterMapM fun path ↦ do
    return (← readText path).map fun text ↦ (path, text)
  let e := run files environment args
  IO.print e.output
  if let some message := e.error then IO.eprintln message
  return UInt32.ofNat e.code
