/-
This file walks through the tables of a document, with the whole path at hand.

The walk goes through tables only and stops at everything else, at scalars and at arrays. A path is
the list of the names on the way, so that names that hold points, or nothing at all, stay apart. How
a path becomes one text is another matter: the names can be joined by points, all of them or without
the unnamed ones at the beginning.
-/

import ConnectorSettings.Toml.Value

namespace ConnectorSettings

namespace Toml

/-- The text of a scalar. -/
def Value.scalarText? : Value → Option String
  | .text value => some value
  | .integer value => some (Text.integerText value)
  | .real value => some value.text
  | .boolean value => some (if value then "true" else "false")
  | .moment value => some value.text
  | .list _ => none
  | .table _ => none

mutual

/-- Where the walk through a value stops, in its order: what is no table itself, with its path. -/
def Value.stops : Value → List (List String × Value)
  | .table entries => tableStops entries
  | value => [([], value)]

def tableStops : List (String × Value) → List (List String × Value)
  | [] => []
  | (name, value) :: rest =>
    value.stops.map (fun stop => (name :: stop.1, stop.2)) ++ tableStops rest

end

/-- The value can be reached from the table through tables alone. -/
inductive Reaches : Table → List String → Value → Prop
  | entry {table : Table} {name : String} {value : Value} (member : (name, value) ∈ table) :
      Reaches table [name] value
  | inside {table inner : Table} {name : String} {path : List String} {value : Value}
      (member : (name, .table inner) ∈ table) (further : Reaches inner path value) :
      Reaches table (name :: path) value

/-- The names of a table are in order, and so are those of the tables inside it. -/
inductive InOrder : Table → Prop
  | sorted {table : Table} (names : (table.map Prod.fst).Pairwise (· ≤ ·))
      (inside : ∀ name inner, (name, Value.table inner) ∈ table → InOrder inner) : InOrder table

/-- The names of a path, joined by points. -/
def joinedPath (path : List String) : String :=
  ".".intercalate path

/-- The same without the unnamed tables at the beginning. -/
def namedPath (path : List String) : String :=
  joinedPath (path.dropWhile fun name => name = "")

end Toml

end ConnectorSettings
