/-
This file runs the program: from a command line, files and an environment to what is printed and
the exit code.

The command line is read first, so a mistake in it comes before every other. Then the preferences
are loaded, and what the command line says takes precedence over them. Resolving checks the values
of all settings before it reports any of them. An error is printed with what was being done in front
of it.
-/

import ConnectorSettings.CommandLine.Reading
import ConnectorSettings.Preferences.Loading
import ConnectorSettings.OutputFormat
import ConnectorSettings.Source

namespace ConnectorSettings

namespace Program

/-- What the program runs in. -/
structure Surroundings where
  files : Files
  environment : Environment
  workDirectory : String
  /-- Whether the output goes to a terminal. -/
  toTerminal : Bool

/-! ### Errors -/

inductive Failure where
  | preferences (error : PreferencesError)
  | sources (error : SourceError)
  | invalid (connector : Connector) (error : SettingError)
  | lookup (error : SettingError)
  deriving DecidableEq, Repr

def Failure.message : Failure → String
  | preferences error => "failed to load fsconf config: " ++ error.fullMessage
  | sources error => "failed to load configuration sources: " ++ error.fullMessage
  | invalid connector error =>
    "invalid " ++ connector.name ++ " configuration: " ++ error.message
  | lookup error => error.message

/-! ### Colour -/

/-- What a variable that switches something on or off says; only a zero switches off. -/
def switchOf (environment : Environment) (name : String) : Option Bool :=
  match environment.read name with
  | .present value => some (value != "0")
  | .absent => none
  | .undecodable _ => none

/-- Whether output is coloured: if that is forced, or else if it goes to a terminal and nothing
speaks against it. -/
def isColored (surroundings : Surroundings) : Bool :=
  if switchOf surroundings.environment "CLICOLOR_FORCE" = some true then true
  else if (switchOf surroundings.environment "NO_COLOR").isSome then false
  else surroundings.toTerminal && (switchOf surroundings.environment "CLICOLOR").getD true

/-! ### Commands -/

/-- The view in which a request is resolved. -/
def viewOf (preferences : Preferences) (request : CommandLine.ResolveRequest)
    (environment : Environment) (map : SettingsMap) : View :=
  let connector := request.connector.getD preferences.connector
  let visible := if request.ignoreEnvironment then Environment.empty else environment
  ((connector.view map visible).withScope request.scope).withAliases preferences.aliases

def resolve (surroundings : Surroundings) (preferences : Preferences)
    (request : CommandLine.ResolveRequest) : Except Failure String := do
  let connector := request.connector.getD preferences.connector
  let map ← (Source.collect surroundings.files (preferences.sources ++ request.files)
    request.overrides).mapError .sources
  let view := viewOf preferences request surroundings.environment map
  (connector.validate view).mapError (.invalid connector)
  let report ← (Report.ofView connector view
    (request.showSecrets || preferences.showSecrets)).mapError .lookup
  return report.render (request.format.getD preferences.format) (isColored surroundings)

def keys (surroundings : Surroundings) (preferences : Preferences)
    (request : CommandLine.KeysRequest) : String :=
  let connector := request.connector.getD preferences.connector
  (KeyTable.ofConnector connector request.scope).render
    (request.format.getD preferences.format) (isColored surroundings)

/-- What a command prints. -/
def perform (surroundings : Surroundings) (preferences : Preferences) :
    CommandLine.Command → Except Failure String
  | .resolve request => resolve surroundings preferences request
  | .keys request => .ok (keys surroundings preferences request)

/-! ### The whole program -/

def loadPreferences (surroundings : Surroundings) :
    Except PreferencesError (Preferences × List Preferences.Warning) :=
  Preferences.load surroundings.files (Preferences.userFile? surroundings.environment)
    (some surroundings.workDirectory) surroundings.environment

/-- The program's name and version. -/
def version : String := "fsconf 0.1.0"

inductive Outcome where
  /-- The command line asks for no command. -/
  | stopped (reason : CommandLine.Stop)
  | printed (warnings : List Preferences.Warning) (text : String)
  | failed (warnings : List Preferences.Warning) (failure : Failure)
  deriving DecidableEq, Repr

namespace Outcome

def exitCode : Outcome → UInt8
  | stopped reason => reason.exitCode
  | printed _ _ => 0
  | failed _ _ => 1

/-- What goes to the output. The text of the help is left to whoever runs the program. -/
def output : Outcome → String
  | stopped reason => if reason = .versionWanted then version ++ "\n" else ""
  | printed _ text => text
  | failed _ _ => ""

/-- The last line that a failed run prints. -/
def complaint? : Outcome → Option String
  | stopped _ => none
  | printed _ _ => none
  | failed _ failure => some ("Error: " ++ failure.message)

end Outcome

def run (surroundings : Surroundings) (words : List String) : Outcome :=
  match CommandLine.read words with
  | .error reason => .stopped reason
  | .ok command =>
    match loadPreferences surroundings with
    | .error error => .failed [] (.preferences error)
    | .ok (preferences, warnings) =>
      match perform surroundings preferences command with
      | .ok text => .printed warnings text
      | .error failure => .failed warnings failure

end Program

end ConnectorSettings
