/-
This file holds the values of a TOML document and flattens a table into settings.

Flattening walks a table in its own order and joins the names on the way to a scalar by points. An
unnamed table at the outermost level adds nothing to the names below it. Nothing in a settings map
could stand for an array, so the first one that the walk meets ends it.
-/

import ConnectorSettings.Number.Shortest
import ConnectorSettings.SettingsMap
import ConnectorSettings.Toml.DateTime

namespace ConnectorSettings

namespace Toml

/-- A floating-point number with the special values of the format. -/
inductive Real where
  | notANumber
  | infinite (negative : Bool)
  | finite (negative : Bool) (magnitude : Binary64)
  deriving DecidableEq, Repr

namespace Real

def sign (negative : Bool) : String :=
  if negative then "-" else ""

def text : Real → String
  | notANumber => "NaN"
  | infinite negative => sign negative ++ "inf"
  | finite negative magnitude => sign negative ++ Shortest.text magnitude

end Real

inductive Value where
  | text (value : String)
  | integer (value : Int)
  | real (value : Real)
  | boolean (value : Bool)
  | moment (value : DateTime)
  | list (items : List Value)
  | table (entries : List (String × Value))

/-- Named values, in the order in which they were written or, in the normal form of a table, in the
order of their names. -/
abbrev Table := List (String × Value)

/-! ### Flattening -/

/-- The path of a name inside the table at another path. -/
def joinPath (path name : String) : String :=
  if path.isEmpty then name else path ++ "." ++ name

/-- An array where only scalars and tables can stand. -/
structure ArrayAt where
  path : String
  deriving DecidableEq, Repr

mutual

/-- The scalars of a value with their paths, in the order of the walk. -/
def leaves (path : String) : Value → Except ArrayAt (List (String × String))
  | .text value => .ok [(path, value)]
  | .integer value => .ok [(path, Text.integerText value)]
  | .real value => .ok [(path, value.text)]
  | .boolean value => .ok [(path, if value then "true" else "false")]
  | .moment value => .ok [(path, value.text)]
  | .list _ => .error ⟨path⟩
  | .table entries => tableLeaves path entries

def tableLeaves (path : String) : List (String × Value) → Except ArrayAt (List (String × String))
  | [] => .ok []
  | (name, value) :: rest =>
    match leaves (joinPath path name) value with
    | .error array => .error array
    | .ok first =>
      match tableLeaves path rest with
      | .error array => .error array
      | .ok others => .ok (first ++ others)

end

/-- The settings of a table. Of two scalars with one path, the later in the walk gives the value. -/
def flatten (table : Table) : Except ArrayAt SettingsMap :=
  (tableLeaves "" table).map SettingsMap.ofList

end Toml

end ConnectorSettings
