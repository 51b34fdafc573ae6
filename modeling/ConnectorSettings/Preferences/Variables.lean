/-
This file lets the environment override preferences.

Three variables of the program's own choose the connector, the output format and the ecosystem
names, over every file. One that is set to something else than such a choice is ignored with a
warning. One whose bytes are no text is ignored without a word.
-/

import ConnectorSettings.Preferences

namespace ConnectorSettings

namespace Preferences

def connectorVariable : String := "FSCONF_BACKEND"

def formatVariable : String := "FSCONF_FORMAT"

def aliasesVariable : String := "FSCONF_ALIASES"

/-- Why a variable is ignored. -/
inductive Warning where
  | unknownConnector (value : String)
  | unknownFormat (value : String)
  | noAliases
  deriving DecidableEq, Repr

def Warning.message : Warning → String
  | unknownConnector value =>
    "ignoring invalid " ++ connectorVariable ++ " value: " ++ value ++ " (expected one of " ++
      Connector.allNames ++ ")"
  | unknownFormat value => "ignoring invalid " ++ formatVariable ++ " value: " ++ value
  | noAliases => "ignoring empty " ++ aliasesVariable ++ " value"

/-! ### What each variable says -/

/-- The value of that name; a text that names none is refused. -/
def chooseNamed {α : Type} [Named α] (refusal : String → Warning) (value : String) :
    Except Warning α :=
  match Named.ignoringCase? value with
  | some chosen => .ok chosen
  | none => .error (refusal value)

def chooseConnector : String → Except Warning Connector :=
  chooseNamed .unknownConnector

def chooseFormat : String → Except Warning OutputFormat :=
  chooseNamed .unknownFormat

def chooseAliases (value : String) : Except Warning (List String) :=
  let aliases := Aliases.ofText value
  if aliases.isEmpty then .error .noAliases else .ok aliases

/-- The value of a field that a variable may override, and the warning if it is ignored. -/
def override {α : Type} (environment : Environment) (variableName : String)
    (choose : String → Except Warning α) (below : α) : α × List Warning :=
  match environment.read variableName with
  | .present value =>
    match choose value with
    | .ok chosen => (chosen, [])
    | .error warning => (below, [warning])
  | .absent => (below, [])
  | .undecodable _ => (below, [])

/-- The preferences under an environment, with the warnings in the order of the variables. -/
def underEnvironment (below : Preferences) (environment : Environment) :
    Preferences × List Warning :=
  let connector := override environment connectorVariable chooseConnector below.connector
  let format := override environment formatVariable chooseFormat below.format
  let aliases := override environment aliasesVariable chooseAliases below.aliases
  ({ below with connector := connector.1, format := format.1, aliases := aliases.1 },
    connector.2 ++ format.2 ++ aliases.2)

end Preferences

end ConnectorSettings
