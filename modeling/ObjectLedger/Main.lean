import ObjectLedger.CommandLine.Run

/-!
# The command line

Reads the files, the input and the variables that a command asks for, runs it, and writes what it says.
-/

open ObjectLedger CommandLine

/-- The content of a file, if it can be read. -/
def readFile? (path : String) : IO (Option String) := do
  try
    return some (← IO.FS.readFile path)
  catch _ => return none

/-- The variables of the environment that matter. -/
def readEnvironment : IO Environment :=
  variableNames.filterMapM fun name => do
    return (← IO.getEnv name).map (name, ·)

def main (args : List String) : IO UInt32 := do
  let env ← readEnvironment
  let files ← (filesOf env args).filterMapM fun path => do
    return (← readFile? path).map (Surroundings.plainName path, ·)
  let input ← if readsInput env args then (← IO.getStdin).readToEnd else pure ""
  let outcome := run { files, input, env } args
  IO.print outcome.output
  if let some message := outcome.message then
    IO.eprintln message
  return outcome.code
