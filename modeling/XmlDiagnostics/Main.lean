import XmlDiagnostics.CommandLine

/-!
# The program

Reads the files that the command line names, replays the events, and prints the reports.
The exit code is zero if the replay ran to its end, one if it did not, and two if the
command line asks for nothing.
-/

namespace XmlDiagnostics.Program

/-- What there is to read at a path. -/
def readStored (path : String) : IO StoredFile := do
  try
    return StoredFile.ofBytes (← IO.FS.readBinFile path)
  catch
    | .noFileOrDirectory .. => return .missing
    | failure => return .unreadable (toString failure)

/-- The folder of the user's settings. -/
def settingsFolder : IO (Option String) := do
  match ← IO.getEnv "XDG_CONFIG_HOME" with
  | some folder =>
    if folder.startsWith "/" then return some folder
    else return (← IO.getEnv "HOME").map (· ++ "/.config")
  | none => return (← IO.getEnv "HOME").map (· ++ "/.config")

/-- The path of the settings below a folder. -/
def settingsBelow (folder : String) : String :=
  folder ++ Failure.programName ++ "/config.toml"

/-- The files of an invocation. -/
def readFiles (i : CommandLine.Invocation) : IO Replay.Files := do
  return {
    document := ← readStored i.document
    events := ← readStored i.events
    namedSettings := ← match i.config with
      | some path => readStored path
      | none => pure .missing
    localSettings := ← readStored (settingsBelow "")
    systemSettings := ← match ← settingsFolder with
      | some folder => readStored (settingsBelow (folder ++ "/"))
      | none => pure .missing }

/-- Prints reports as lines of text. -/
def print (reports : List Report) : IO Unit := do
  for report in reports do
    for line in report.lines do
      IO.eprintln line

/-- Runs an invocation and gives the exit code. -/
def run (i : CommandLine.Invocation) : IO UInt32 := do
  match Replay.run (← readFiles i) i.options with
  | .ok replay =>
    print replay.reports
    return if replay.pass.isAborted then 1 else 0
  | .error failure =>
    print [failure.report]
    return 1

end XmlDiagnostics.Program

open XmlDiagnostics in
/-- Runs the program with the words of its command line. -/
def main (words : List String) : IO UInt32 := do
  match CommandLine.parse words with
  | .ok invocation => Program.run invocation
  | .error refusal =>
    if refusal.isAnswer then
      IO.println refusal.message
      return 0
    else
      IO.eprintln refusal.message
      return 2
