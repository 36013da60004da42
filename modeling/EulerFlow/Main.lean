import EulerFlow.CommandLine

namespace EulerFlow.CommandLine

/-- The lines that report an error: its message, and the messages below it. -/
def errorReport : List String → List String
  | [] => []
  | [message] => ["Error: " ++ message]
  | [message, cause] => ["Error: " ++ message, "", "Caused by:", "    " ++ cause]
  | message :: causes =>
    ["Error: " ++ message, "", "Caused by:"] ++
      causes.zipIdx.map fun (cause, i) => "    " ++ toString i ++ ": " ++ cause

/-- What stands on the error stream when the arguments make no sense. -/
def usage : List String := ["Usage: eulerflow <MODEL>"]

/-- The lines for the error stream: the journal, then what went wrong. -/
def Outcome.complaints (outcome : Outcome) : List String :=
  outcome.notices.map Notice.line ++ if outcome.exitCode = 2 then usage else errorReport outcome.failure

end EulerFlow.CommandLine

open EulerFlow

/-- The text of a file, unless it cannot be read as one. -/
def readText? (path : String) : IO (Option String) := do
  try
    return some (← IO.FS.readFile path)
  catch _ => return none

/-- The program on its own arguments, with the one file that they name. -/
def main (args : List String) : IO UInt32 := do
  let text ← match CommandLine.modelPath? args with
    | none => pure none
    | some path => readText? path
  let outcome := CommandLine.run (fun _ => text) args
  (← IO.getStdout).putStr outcome.stdout
  let stderr ← IO.getStderr
  for line in outcome.complaints do
    stderr.putStrLn line
  return outcome.exitCode.toUInt32
