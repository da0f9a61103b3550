import Shorthand.CommandLine.Report
import Shorthand.Settings.Location

/-! # The program

The outer layer of the command line: it looks up the environment, the settings file and the input, and prints the
report. -/

namespace Shorthand.CommandLine

/-- The variables of the environment that matter. -/
def variableNames : List String :=
  ["XDG_CONFIG_HOME", "HOME", "ZENTREE_FORMAT", "ZENTREE_INDENT", "ZENTREE_LOG_LEVEL"]

/-- Look up the variables that matter. -/
def readVariables : IO (Table Text) := do
  let found ← variableNames.mapM fun name => do
    let value ← IO.getEnv name
    return (name.toList, value)
  return found.filterMap fun entry => entry.2.map fun value => (entry.1, value.toList)

/-- Look up what is in the place of the settings file. -/
def readFile (path : String) : IO SettingsFile := do
  try
    let bytes ← IO.FS.readBinFile path
    return .content bytes
  catch
    | .noFileOrDirectory .. => return .absent
    | _ => return .unreadable

/-- Print a report and give its number to the caller. -/
def print (report : Report) : IO UInt32 := do
  (← IO.getStderr).putStr (String.ofList report.remarks)
  (← IO.getStdout).putStr (String.ofList report.output)
  return report.status.toUInt32

/-- End without a report. -/
def giveUp (message : Text) : IO UInt32 := do
  (← IO.getStderr).putStrLn (String.ofList message)
  return 1

/-- The message for what has no report. -/
def Escape.message : Escape → Text
  | settings _ => SettingsFault.fatalMessage
  | level fault => fault.message
  | integer cause => cause.message

/-- Answer a command line. -/
def answer (arguments : List String) : IO UInt32 := do
  let environment ← readVariables
  let file ← readFile (String.ofList (Settings.location environment))
  match Job.prepare file environment (arguments.map String.toList) with
  | .error escape => giveUp escape.message
  | .ok (.inl report) => print report
  | .ok (.inr job) =>
    let abbreviation ← match job.invocation.abbreviation with
      | some given => pure given
      | none => String.toList <$> (← IO.getStdin).readToEnd
    match job.report abbreviation with
    | .error escape => giveUp escape.message
    | .ok report => print report

end Shorthand.CommandLine

/-- The program. -/
def main (arguments : List String) : IO UInt32 := Shorthand.CommandLine.answer arguments
