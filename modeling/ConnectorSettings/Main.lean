/-
This file is the program's outer layer: it asks the process for its variables and the disk for
files, hands the answers to `Program.run`, and prints the outcome.

Which files are asked for is not known before the preferences are read, since they can name sources.
So the files of the preferences are read first, and then those that the run will load.
-/

import ConnectorSettings.Program

namespace ConnectorSettings

namespace Main

/-- What the disk says about the paths that were asked for. -/
abbrev DiskAnswers := List (String × Except ReadFailure String)

/-- An answer for any other path is never needed; the file would be missing. -/
def filesOfAnswers (answers : DiskAnswers) : Files where
  isPresent path :=
    match Entries.lookup? path answers with
    | some (.ok _) => true
    | some (.error failure) => failure == .isDirectory || failure == .notText
    | none => false
  read path := (Entries.lookup? path answers).getD (.error .notFound)

def readDisk (path : String) : IO (Except ReadFailure String) := do
  try
    let bytes ← IO.FS.readBinFile path
    return decodeFile bytes.toList
  catch failure =>
    match failure with
    | .inappropriateType _ code _ =>
      return .error (if code = 21 then .isDirectory else .notDirectory)
    | _ => return .error .notFound

def readAll (paths : List String) : IO DiskAnswers :=
  paths.mapM fun path => do return (path, ← readDisk path)

/-- Every variable that means something to the program. -/
def variableNames : List String :=
  ["HOME", "XDG_CONFIG_HOME", "CLICOLOR", "CLICOLOR_FORCE", "NO_COLOR",
    Preferences.connectorVariable, Preferences.formatVariable, Preferences.aliasesVariable] ++
    (Named.all : List Connector).flatMap fun connector =>
      connector.settings.filterMap Setting.variableName

def readVariables : IO Environment := do
  let found ← variableNames.mapM fun name => do
    return (← IO.getEnv name).map fun value => (name, value.toUTF8.toList)
  return .live (Variables.ofList (found.filterMap id))

/-- The files that a command will load under some preferences. -/
def filesToLoad (words : List String) (preferences : Preferences) : List String :=
  match CommandLine.read words with
  | .ok (.resolve request) => preferences.sources ++ request.files
  | .ok (.keys _) => []
  | .error _ => []

def usage : String :=
  "Usage: fsconf resolve [--backend NAME] [--scope NAME] [--conf FILE]... [--set KEY=VALUE]...\n" ++
  "                      [--no-env] [--format NAME] [--show-secrets]\n" ++
  "       fsconf keys [--backend NAME] [--scope NAME] [--format NAME]"

def printStop : CommandLine.Stop → IO Unit
  | .helpWanted => IO.println usage
  | .versionWanted => return
  | _ => IO.eprintln usage

def printWarnings (warnings : List Preferences.Warning) : IO Unit :=
  warnings.forM fun warning => IO.eprintln ("WARN " ++ warning.message)

def printOutcome (outcome : Program.Outcome) : IO Unit := do
  match outcome with
  | .stopped reason => printStop reason
  | .printed warnings _ => printWarnings warnings
  | .failed warnings _ => printWarnings warnings
  IO.print outcome.output
  if let some line := outcome.complaint? then IO.eprintln line

def runProcess (words : List String) : IO UInt32 := do
  let environment ← readVariables
  let workDirectory := toString (← IO.currentDir)
  let toTerminal ← (← IO.getStdout).isTty
  let own ← readAll ((Preferences.userFile? environment).toList ++
    [PathName.join workDirectory Preferences.workFileName])
  let surroundings : Program.Surroundings :=
    ⟨filesOfAnswers own, environment, workDirectory, toTerminal⟩
  let named := match Program.loadPreferences surroundings with
    | .ok (preferences, _) => filesToLoad words preferences
    | .error _ => []
  let others ← readAll named
  let outcome := Program.run { surroundings with files := filesOfAnswers (own ++ others) } words
  printOutcome outcome
  return outcome.exitCode.toUInt32

end Main

end ConnectorSettings

def main (words : List String) : IO UInt32 :=
  ConnectorSettings.Main.runProcess words
