/-
This file builds the report of a view: for every setting of a connector its value, as text, and
where the value came from.

Values are not read as types, so a malformed one is reported like any other. A secret value is
replaced by the placeholder unless it is asked for; that it is present, and its origin, are reported
either way. Each row also has the key that would set it, the most specific one for the view's scope.

In JSON the members stand in a fixed order, absent values are null, and an origin without a name,
the fallback, is a record without one.
-/

import ConnectorSettings.Connector
import ConnectorSettings.Json

namespace ConnectorSettings

namespace Report

structure Row where
  setting : String
  /-- The key that would set the value for the scope of the report. -/
  key : String
  value : Option String
  origin : Option Origin
  secret : Bool
  deriving DecidableEq, Repr

/-- What is shown of a value. -/
def shownValue (showSecrets : Bool) (setting : Setting) (value : String) : String :=
  if setting.secret && !showSecrets then redacted else value

def Row.ofFound (view : View) (showSecrets : Bool) (setting : Setting) (found : Option Found) :
    Row where
  setting := setting.name
  key := view.shownKey setting
  value := found.map fun found => shownValue showSecrets setting found.value
  origin := found.map Found.origin
  secret := setting.secret

end Report

structure Report where
  connector : Connector
  scope : Option String
  rows : List Report.Row
  deriving DecidableEq, Repr

namespace Report

/-- The report of a view, or the error of the first setting that cannot be looked up. -/
def ofView (connector : Connector) (view : View) (showSecrets : Bool) :
    Except SettingError Report := do
  let found ← view.findAll
  return ⟨connector, view.scope, found.map fun pair =>
    Row.ofFound view showSecrets pair.1 pair.2⟩

end Report

/-! ### JSON -/

def Origin.toJson (origin : Origin) : Json :=
  match origin.name? with
  | some name => .record [("kind", .text origin.kind), ("name", .text name)]
  | none => .record [("kind", .text origin.kind)]

namespace Report

def Row.toJson (row : Row) : Json :=
  .record
    [("setting", .text row.setting),
      ("key", .text row.key),
      ("value", Json.ofText? row.value),
      ("source", (row.origin.map Origin.toJson).getD .null),
      ("secret", .bool row.secret)]

def toJson (report : Report) : Json :=
  .record
    [("backend", .text report.connector.name),
      ("scope", Json.ofText? report.scope),
      ("settings", .list (report.rows.map Row.toJson))]

end Report

end ConnectorSettings
