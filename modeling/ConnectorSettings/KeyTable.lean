/-
This file builds the table of a connector's keys: what can be set, under which keys and variables,
and what holds otherwise. Without a scope, the scoped keys are shown for a placeholder that says
what a scope is.

In JSON the members stand in alphabetical order. In a terminal each setting is a block of lines, and
what a setting does not have takes no line.
-/

import ConnectorSettings.Connector
import ConnectorSettings.Json
import ConnectorSettings.Terminal

namespace ConnectorSettings

namespace KeyTable

structure Row where
  setting : String
  key : String
  scopedKey : String
  fallback : Option String
  variableName : Option String
  deriving DecidableEq, Repr

end KeyTable

structure KeyTable where
  connector : Connector
  rows : List KeyTable.Row
  deriving DecidableEq, Repr

namespace KeyTable

/-- The scope that the scoped keys are shown for. -/
def shownScope (connector : Connector) (scope : Option String) : String :=
  (scope.filter fun name => !name.isEmpty).getD ("<" ++ connector.scopeLabel ++ ">")

def ofConnector (connector : Connector) (scope : Option String) : KeyTable where
  connector := connector
  rows := connector.settings.map fun setting =>
    { setting := setting.name
      key := connector.layout.key setting.suffix
      scopedKey := connector.layout.keyFor setting.suffix (shownScope connector scope)
      fallback := setting.fallback
      variableName := setting.variableName }

/-! ### JSON -/

def Row.toJson (row : Row) : Json :=
  .record
    [("default", Json.ofText? row.fallback),
      ("env", Json.ofText? row.variableName),
      ("key", .text row.key),
      ("scoped_key", .text row.scopedKey),
      ("setting", .text row.setting)]

def toJson (table : KeyTable) : Json :=
  .record
    [("backend", .text table.connector.name),
      ("keys", .list (table.rows.map Row.toJson))]

/-! ### Terminal -/

open Terminal

def line (label text : String) : List Segment :=
  [.plain "     ", .styled .cyan label, .plain ("  " ++ text ++ "\n")]

def optionalLine (label : String) : Option String → List Segment
  | some text => line label text
  | none => []

def Row.segments (row : Row) : List Segment :=
  [.plain "   ", .styled .bold row.setting, .plain "\n"] ++ line "key:" row.key ++
    line "scoped:" row.scopedKey ++ optionalLine "default:" (row.fallback.map Text.quoted) ++
    optionalLine "env:" row.variableName

def segments (table : KeyTable) : List Segment :=
  [.plain " ", .styled .bold table.connector.name, .plain "\n\n"] ++
    table.rows.flatMap Row.segments

end KeyTable

end ConnectorSettings
