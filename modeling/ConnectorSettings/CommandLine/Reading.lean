/-
This file reads a whole command line, without the program's name.

The first word decides. It names a command, which the parameters follow, or asks for help or for the
version; every other first word is a mistake. Words behind a request for help have to name a
command.
-/

import ConnectorSettings.CommandLine.Parameter

namespace ConnectorSettings

namespace CommandLine

/-- The first words that are not parameters. -/
inductive Entry where
  | resolve
  | keys
  | help
  deriving DecidableEq, Repr

instance : Named Entry where
  all := [.resolve, .keys, .help]
  name
    | .resolve => "resolve"
    | .keys => "keys"
    | .help => "help"

/-- Help with what some words name; nothing has commands of its own below it. -/
def helpWith : List String → Stop
  | [] => .helpWanted
  | [word] =>
    match (Named.exactly? word : Option Entry) with
    | some _ => .helpWanted
    | none => .unknownCommand
  | _ :: _ :: _ => .unknownCommand

/-- Why a line is refused whose first word names no command. -/
def stopAt : Word → List String → Stop
  | .endOfParameters, [] => .nothingAsked
  | .endOfParameters, word :: _ =>
    match (Named.exactly? word : Option Entry) with
    | some _ => .unknownArgument
    | none => .unknownCommand
  | .long name value, _ =>
    if name = "help" then if value.isNone then .helpWanted else .unwantedValue
    else if name = "version" then if value.isNone then .versionWanted else .unwantedValue
    else .unknownArgument
  | .short first _, _ =>
    if first = 'h' then .helpWanted
    else if first = 'V' then .versionWanted
    else .unknownArgument
  | .plain _, _ => .unknownCommand

def read : List String → Except Stop Command
  | [] => .error .nothingAsked
  | word :: rest =>
    match (Named.exactly? word : Option Entry) with
    | some .resolve => (givenOf Parameter.ofResolve rest).map fun given =>
        .resolve given.resolveRequest
    | some .keys => (givenOf Parameter.ofKeys rest).map fun given => .keys given.keysRequest
    | some .help => .error (helpWith rest)
    | none => .error (stopAt (Word.ofText word) rest)

end CommandLine

end ConnectorSettings
