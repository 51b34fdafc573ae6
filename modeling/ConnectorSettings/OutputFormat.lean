/-
This file names the formats that reports and key tables are written in, and writes them in either.
Colour is for terminals only.
-/

import ConnectorSettings.KeyTable
import ConnectorSettings.Named
import ConnectorSettings.Report.Terminal

namespace ConnectorSettings

inductive OutputFormat where
  /-- Text for people, with colour where the terminal has it. -/
  | terminal
  | json
  deriving DecidableEq, Repr

namespace OutputFormat

instance : Named OutputFormat where
  all := [.terminal, .json]
  name
    | .terminal => "terminal"
    | .json => "json"

/-- The format that is used where none is named. -/
instance : Inhabited OutputFormat := ⟨.terminal⟩

def name (format : OutputFormat) : String :=
  Named.name format

end OutputFormat

def Report.render (report : Report) (format : OutputFormat) (color : Bool) : String :=
  match format with
  | .json => report.toJson.indented
  | .terminal => Terminal.render color report.segments

def KeyTable.render (table : KeyTable) (format : OutputFormat) (color : Bool) : String :=
  match format with
  | .json => table.toJson.indented
  | .terminal => Terminal.render color table.segments

end ConnectorSettings
