/-
This file brings the table of a document into its normal form.

In the normal form the names of every table are in order by code point, whatever order they were
written in. And a moment has one form only. What passes data on as nothing but tables and texts
writes a moment as a table with one reserved name, and the text of the moment under it. Such a table
inside a document becomes that moment. It is known by its first name, so names behind that one are
given up; and since the first name is reserved, a table in which it does not hold the text of a
moment has no normal form. In any other place the name is an ordinary one. The outermost table of a
document is never a moment.
-/

import ConnectorSettings.Toml.Moment
import ConnectorSettings.Toml.Value

namespace ConnectorSettings

namespace Toml

/-- The name under which a table holds the text of a moment. -/
def reservedMomentName : String := "$__toml_private_datetime"

/-- The moment whose text is the given value. -/
def quotedMoment? : Value → Option DateTime
  | .text value => DateTime.ofText? value
  | _ => none

/-- Puts a named value in front of the first one whose name comes after it. -/
def insertSorted (name : String) (value : Value) : Table → Table
  | [] => [(name, value)]
  | entry :: rest =>
    if name < entry.1 then (name, value) :: entry :: rest
    else entry :: insertSorted name value rest

mutual

/-- The normal form of a value inside a document. -/
def Value.normal? : Value → Option Value
  | .table [] => some (.table [])
  | .table ((name, value) :: rest) =>
    if name = reservedMomentName then (quotedMoment? value).map .moment
    else do
      let first ← value.normal?
      let others ← normalTable? rest
      return .table (insertSorted name first others)
  | .list items => (normalItems? items).map .list
  | value => some value

/-- The normal form of the outermost table of a document. -/
def normalTable? : List (String × Value) → Option (List (String × Value))
  | [] => some []
  | (name, value) :: rest => do
    let first ← value.normal?
    let others ← normalTable? rest
    return insertSorted name first others

def normalItems? : List Value → Option (List Value)
  | [] => some []
  | item :: rest => do
    let first ← item.normal?
    let others ← normalItems? rest
    return first :: others

end

end Toml

end ConnectorSettings
