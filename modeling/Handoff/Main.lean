/-
Handoff.Main — the program.

The arguments are read first, so that wrong ones end the program before anything else is read. The
settings file, the environment file and the input are then read whole, and the result is printed.
-/
import Handoff.CommandLine.Session

namespace Handoff.Main

open CommandLine

/-- The environment variables that the program looks at. -/
def variableNames : List String :=
  ["WORKQ_QUEUE_NAME", "WORKQ_INITIAL_CAPACITY", "WORKQ_MAX_CAPACITY", "WORKQ_POLL_INTERVAL_MS",
    "OTEL_ENDPOINT", "LOG_LEVEL"]

/-- The environment of the program. -/
def readEnvironment : IO Environment := do
  let found ← variableNames.mapM fun name => do
    return (← IO.getEnv name).map fun value => (name, value.toUTF8.toList)
  return found.filterMap (·)

/-- Why a file could not be read. A directory can be opened, and only reading from it fails. -/
def faultOf : IO.Error → Settings.ReadFault
  | .inappropriateType _ code _ => if code = 21 then .isDirectory else .notDirectory
  | .invalidArgument .. => .nameTooLong
  | _ => .missing

/-- The bytes of a file. -/
def readFile (path : String) : IO (Except Settings.ReadFault (List UInt8)) := do
  try
    return .ok (← IO.FS.readBinFile path).toList
  catch e => return .error (faultOf e)

/-- What the program reads for an invocation. -/
def readInputs (invocation : Invocation) : IO Inputs := do
  let configFile ← match invocation.config with
    | some path => readFile path
    | none => pure (.error .missing)
  let standardInput ← match invocation.task with
    | .pipe _ => pure (← (← IO.getStdin).readBinToEnd).toList
    | _ => pure []
  return {
    environment := ← readEnvironment
    environmentFile := (← readFile ".env").toOption
    configFile
    standardInput }

end Handoff.Main

def main (arguments : List String) : IO UInt32 := do
  let result ← match Handoff.CommandLine.parse arguments with
    | none => pure Handoff.CommandLine.Result.usage
    | some invocation => do
      pure (Handoff.CommandLine.execute invocation (← Handoff.Main.readInputs invocation))
  IO.print result.output
  IO.eprint result.complaint
  return UInt32.ofNat result.code
