/-
This file holds the preferences: what the program does where its command line does not say.

Preferences are built from layers over the built-in ones. A layer is what one file says; a field
that it leaves out, or says the built-in value for, keeps the value below it. The sources are an
exception, since they add up: those of a lower layer are read first.

Ecosystem names are brought into one form wherever they come from: no blanks around them, none of
them blank, and a point at the end of each.
-/

import ConnectorSettings.Connector
import ConnectorSettings.OutputFormat
import ConnectorSettings.Text.Split

namespace ConnectorSettings

/-! ### Ecosystem names -/

namespace Aliases

/-- A name with a point at its end. -/
def pointed (name : List Char) : List Char :=
  if name.getLast? = some '.' then name else name ++ ['.']

def normalize (names : List String) : List String :=
  ((names.map fun name => Text.trim name.toList).filter fun name => !name.isEmpty).map fun name =>
    String.ofList (pointed name)

/-- The names of a text that separates them by commas. -/
def ofText (text : String) : List String :=
  normalize ((Text.splitOn ',' text.toList).map String.ofList)

end Aliases

/-! ### Preferences and their layers -/

structure Preferences where
  connector : Connector
  /-- The ecosystem names, highest precedence first. -/
  aliases : List String
  /-- The files that are read before any that the command line names. -/
  sources : List String
  format : OutputFormat
  showSecrets : Bool
  deriving DecidableEq, Repr

namespace Preferences

/-- What holds where nothing is said. -/
def builtIn : Preferences where
  connector := .s3
  aliases := defaultAliases
  sources := []
  format := .terminal
  showSecrets := false

/-- What one file says. -/
structure Layer where
  connector : Option Connector
  aliases : Option (List String)
  sources : Option (List String)
  format : Option OutputFormat
  showSecrets : Option Bool
  deriving DecidableEq, Repr

/-- The value that a layer gives a field over the value below it. -/
def overlaid {α : Type} [DecidableEq α] (builtIn below : α) : Option α → α
  | some value => if value = builtIn then below else value
  | none => below

/-- The preferences with one more layer on top of them. -/
def overlay (below : Preferences) (layer : Layer) : Preferences where
  connector := overlaid builtIn.connector below.connector layer.connector
  aliases := overlaid builtIn.aliases below.aliases layer.aliases
  sources := below.sources ++ layer.sources.getD []
  format := overlaid builtIn.format below.format layer.format
  showSecrets := overlaid builtIn.showSecrets below.showSecrets layer.showSecrets

end Preferences

end ConnectorSettings
