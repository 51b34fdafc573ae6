/-
This file builds the tree of a TOML document while it is read.

A table comes into being in one of three ways, and the way decides what may still be added to it. A
header defines a table once; a table that is only passed through on the way to another is implied,
and a header may define it later; a table made by a dotted key can grow by further dotted keys but
is closed to headers. A value given outright, an inline table included, is closed to everything. An
array of tables grows by its own headers, and every other path through it means its last element.

A finished tree becomes a table that keeps the order in which its names were written. A table that
was implied counts as written where its header stands.
-/

import ConnectorSettings.Entries
import ConnectorSettings.Toml.Value

namespace ConnectorSettings

namespace Toml

inductive TableKind where
  | defined
  | implied
  | dotted
  deriving DecidableEq, Repr

inductive Node where
  | value (value : Value)
  | table (kind : TableKind) (children : List (String × Node))
  | tables (elements : List (List (String × Node)))

/-- The nodes of one table, in the order in which they were written. -/
abbrev Children := List (String × Node)

/-! ### Growing -/

/-- Changes the table at a path. Tables that are missing on the way are made, dotted or implied; a
dotted path may not pass through a defined table. -/
def changeAt (isDotted : Bool) (change : TableKind → Children → Option (TableKind × Children)) :
    List String → TableKind → Children → Option (TableKind × Children)
  | [], kind, children => change kind children
  | name :: path, kind, children =>
    match Entries.lookup? name children with
    | none => do
      let made := if isDotted then TableKind.dotted else TableKind.implied
      let (innerKind, inner) ← changeAt isDotted change path made []
      return (kind, Entries.write name (.table innerKind inner) children)
    | some (.value _) => none
    | some (.table found grandchildren) => do
      guard !(isDotted && found == .defined)
      let (innerKind, inner) ← changeAt isDotted change path found grandchildren
      return (kind, Entries.write name (.table innerKind inner) children)
    | some (.tables elements) => do
      let last ← elements.getLast?
      let (_, inner) ← changeAt isDotted change path .defined last
      return (kind, Entries.write name (.tables (elements.dropLast ++ [inner])) children)

/-- A header of a table: the table is new, or was implied until now and moves to the end. -/
def openTable (name : String) (kind : TableKind) (children : Children) :
    Option (TableKind × Children) :=
  match Entries.lookup? name children with
  | none => some (kind, Entries.write name (.table .defined []) children)
  | some (.table .implied inner) =>
    some (kind, Entries.erase name children ++ [(name, .table .defined inner)])
  | some _ => none

/-- A header of an array of tables: one more element. -/
def openElement (name : String) (kind : TableKind) (children : Children) :
    Option (TableKind × Children) :=
  match Entries.lookup? name children with
  | none => some (kind, Entries.write name (.tables [[]]) children)
  | some (.tables elements) =>
    some (kind, Entries.write name (.tables (elements ++ [[]])) children)
  | some _ => none

/-- A value under a name that is not taken. Behind a dotted path only a dotted table takes one. -/
def putValue (isDotted : Bool) (name : String) (value : Value) (kind : TableKind)
    (children : Children) : Option (TableKind × Children) :=
  if isDotted && kind != .dotted then none
  else
    match Entries.lookup? name children with
    | none => some (kind, Entries.write name (.value value) children)
    | some _ => none

/-- Opens the table or element that a header names. -/
def openHeader (isElement : Bool) (path : List String) (root : Children) : Option Children := do
  let name ← path.getLast?
  let change := if isElement then openElement name else openTable name
  let (_, grown) ← changeAt false change path.dropLast .defined root
  return grown

/-- Puts a value at a dotted key inside the table that a header opened. -/
def assign (header key : List String) (value : Value) (root : Children) : Option Children := do
  let name ← key.getLast?
  let path := key.dropLast
  let isDotted := !path.isEmpty
  let put := changeAt isDotted (putValue isDotted name value) path
  let (_, grown) ← changeAt false put header .defined root
  return grown

/-! ### The finished table -/

mutual

def Node.toValue : Node → Value
  | .value value => value
  | .table _ children => .table (toTable children)
  | .tables elements => .list (toTables elements)

def toTable : List (String × Node) → Table
  | [] => []
  | (name, node) :: rest => (name, node.toValue) :: toTable rest

def toTables : List (List (String × Node)) → List Value
  | [] => []
  | element :: rest => .table (toTable element) :: toTables rest

end

end Toml

end ConnectorSettings
