/-
This file reads what a preference file says.

A preference file is a TOML document with the tables `resolve` and `output`. Names that mean nothing
here are passed over, but a value that is not of the kind its name asks for makes the whole document
unusable.

A table of preferences has two more forms: an array gives its fields by their position and may stop
before the last of them, and a date or time, which has no fields, says nothing. The value of a field
that chooses from a few names is the name itself, or a table whose only entry has that name and an
empty table or array.
-/

import ConnectorSettings.Preferences
import ConnectorSettings.Toml

namespace ConnectorSettings

namespace Preferences

open Toml (Value)

/-! ### Values -/

def textOf? : Value → Option String
  | .text value => some value
  | _ => none

def textsOf? : Value → Option (List String)
  | .list items => items.mapM textOf?
  | _ => none

def booleanOf? : Value → Option Bool
  | .boolean value => some value
  | _ => none

def isEmptyContainer : Value → Bool
  | .list items => items.isEmpty
  | .table entries => entries.isEmpty
  | _ => false

/-- One of a few names. -/
def choiceOf? {α : Type} [Named α] : Value → Option α
  | .text value => Named.exactly? value
  | .table [(name, content)] => if isEmptyContainer content then Named.exactly? name else none
  | _ => none

/-! ### Fields -/

/-- The fields of a table of preferences whose names are given in their order. -/
def fieldsOf? (names : List String) : Value → Option Toml.Table
  | .table entries => some entries
  | .list items => some (names.zip items)
  | .moment _ => some []
  | _ => none

/-- The fields of the table of the given name; one that is left out has none. -/
def fieldsAt? (name : String) (names : List String) (document : Toml.Table) : Option Toml.Table :=
  match Entries.lookup? name document with
  | some value => fieldsOf? names value
  | none => some []

/-- The value of a field that may be left out, but not be of the wrong kind. -/
def field? {α : Type} (read? : Value → Option α) (name : String) (fields : Toml.Table) :
    Option (Option α) :=
  match Entries.lookup? name fields with
  | some value => (read? value).map some
  | none => some none

/-! ### Documents -/

def Layer.ofTable? (document : Toml.Table) : Option Layer := do
  let resolving ← fieldsAt? "resolve" ["backend", "aliases", "sources"] document
  let connector ← field? choiceOf? "backend" resolving
  let aliases ← field? textsOf? "aliases" resolving
  let sources ← field? textsOf? "sources" resolving
  let output ← fieldsAt? "output" ["format", "show_secrets"] document
  let format ← field? choiceOf? "format" output
  let showSecrets ← field? booleanOf? "show_secrets" output
  return { connector, aliases := aliases.map Aliases.normalize, sources, format, showSecrets }

def Layer.ofText? (text : String) : Option Layer :=
  (Toml.parse? text).bind ofTable?

end Preferences

end ConnectorSettings
