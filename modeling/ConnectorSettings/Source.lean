/-
This file reads settings maps from their sources: files in either format, and overrides given one by
one.

A file whose extension is `toml` is read as TOML, whose settings are those of the normal form of its
table, and every other file as properties. Sources are collected in order, files first, and a later
source wins wherever two give the same key. The first source that cannot be read stops the
collection.
-/

import ConnectorSettings.Files
import ConnectorSettings.Files.PathName
import ConnectorSettings.Properties
import ConnectorSettings.Toml
import ConnectorSettings.Toml.Normal

namespace ConnectorSettings

inductive SourceError where
  | unreadable (path : String) (failure : ReadFailure)
  | invalidToml (path : String)
  | malformedLine (path : String) (number : Nat) (content : String)
  | arrayValue (path key : String)
  | badOverride (input : String)
  deriving DecidableEq, Repr

/-- What messages show in place of a diagnostic: the reading of TOML does not say where it
failed. -/
def Toml.diagnostic : String := "<toml>"

namespace SourceError

def message : SourceError → String
  | unreadable path failure =>
    "failed to read config source " ++ path ++ ": " ++ failure.message
  | invalidToml path =>
    "failed to parse TOML config source " ++ path ++ ": " ++ Toml.diagnostic
  | malformedLine path number content =>
    path ++ ":" ++ Text.decimalText number ++ ": malformed property line: " ++ content
  | arrayValue path key => path ++ ": unsupported array value for key " ++ key
  | badOverride input => "invalid override '" ++ input ++ "', expected KEY=VALUE"

/-- The message of the error and, behind it, that of its cause where it has one of its own. -/
def fullMessage : SourceError → String
  | unreadable path failure => (unreadable path failure).message ++ ": " ++ failure.message
  | error => error.message

end SourceError

namespace Source

/-- Settings from properties text; the path only names the text in errors. -/
def fromProperties (path text : String) : Except SourceError SettingsMap :=
  match Properties.parse text with
  | .ok map => .ok map
  | .error line => .error (.malformedLine path line.number line.content)

/-- Settings from TOML text; the path only names the text in errors. -/
def fromToml (path text : String) : Except SourceError SettingsMap :=
  match (Toml.parse? text).bind Toml.normalTable? with
  | none => .error (.invalidToml path)
  | some table =>
    match Toml.flatten table with
    | .ok map => .ok map
    | .error array => .error (.arrayValue path array.path)

/-- The key and value of an override, split at the first equals sign, without blanks around them. -/
def parseOverride (input : String) : Except SourceError (String × String) :=
  match Text.splitOnce? '=' input.toList with
  | some (key, value) =>
    let name := Text.trim key
    if name.isEmpty then .error (.badOverride input)
    else .ok (String.ofList name, String.ofList (Text.trim value))
  | none => .error (.badOverride input)

def load (files : Files) (path : String) : Except SourceError SettingsMap :=
  match files.read path with
  | .error failure => .error (.unreadable path failure)
  | .ok text =>
    if PathName.extension? path = some "toml" then fromToml path text else fromProperties path text

/-- Files in order, then overrides in order. -/
def collect (files : Files) (paths overrides : List String) : Except SourceError SettingsMap := do
  let maps ← paths.mapM (load files)
  let pairs ← overrides.mapM parseOverride
  return (maps.foldl SettingsMap.merge SettingsMap.empty).insertAll pairs

end Source

end ConnectorSettings
