/-
This file loads the preferences from where they are kept: a file of the user's, one in the working
directory, which lies over it, and the environment over both.

A file that does not exist says nothing; one that exists and cannot be read or understood stops the
loading. Sources that a file names are looked for in the directory of that file.
-/

import ConnectorSettings.Files
import ConnectorSettings.Files.PathName
import ConnectorSettings.Preferences.Document
import ConnectorSettings.Preferences.Variables
import ConnectorSettings.Source

namespace ConnectorSettings

inductive PreferencesError where
  | unreadable (path : String) (failure : ReadFailure)
  | invalid (path : String)
  deriving DecidableEq, Repr

namespace PreferencesError

def message : PreferencesError → String
  | unreadable path failure => "failed to read config file " ++ path ++ ": " ++ failure.message
  | invalid path => "failed to parse config file " ++ path ++ ": " ++ Toml.diagnostic

/-- The message of the error and, behind it, that of its cause where it has one of its own. -/
def fullMessage : PreferencesError → String
  | unreadable path failure => (unreadable path failure).message ++ ": " ++ failure.message
  | invalid path => (invalid path).message

end PreferencesError

namespace Preferences

/-! ### Where files are -/

def workFileName : String := ".fsconf.toml"

/-- The user's file below the directory for configurations. -/
def fileBelow (configurations : String) : String :=
  PathName.join (PathName.join configurations "fsconf") "config.toml"

/-- The usual directory for configurations, in the home directory. -/
def usualConfigurations? (environment : Environment) : Option String :=
  match environment.read "HOME" with
  | .present home => if home.isEmpty then none else some (PathName.join home ".config")
  | .absent => none
  | .undecodable _ => none

/-- The user's file: below the directory that a variable gives, if that is absolute, and otherwise
below the usual one. A directory whose name is no text holds no file that could be named here. -/
def userFile? (environment : Environment) : Option String :=
  let usual := (usualConfigurations? environment).map fileBelow
  match environment.read "XDG_CONFIG_HOME" with
  | .present directory =>
    if PathName.isAbsolute directory then some (fileBelow directory) else usual
  | .absent => usual
  | .undecodable bytes => if bytes.head? = some 0x2f then none else usual

/-! ### Files and layers -/

/-- The sources as seen from the directory of the file that names them. -/
def Layer.seenFrom (layer : Layer) (path : String) : Layer :=
  { layer with sources := layer.sources.map fun sources =>
      sources.map (PathName.join (PathName.parent path)) }

def readLayer (files : Files) (path : String) : Except PreferencesError Layer :=
  match files.read path with
  | .error failure => .error (.unreadable path failure)
  | .ok text =>
    match Layer.ofText? text with
    | some layer => .ok (layer.seenFrom path)
    | none => .error (.invalid path)

/-- The preferences with the layer of a file on top, if the file exists. -/
def overlayFile (files : Files) (below : Preferences) (path : String) :
    Except PreferencesError Preferences :=
  if files.isPresent path then (readLayer files path).map below.overlay else .ok below

/-- The preferences from the user's file, the file in the working directory and the environment. -/
def load (files : Files) (userFile workDirectory : Option String) (environment : Environment) :
    Except PreferencesError (Preferences × List Warning) := do
  let paths := userFile.toList ++ (workDirectory.map (PathName.join · workFileName)).toList
  let preferences ← paths.foldlM (overlayFile files) builtIn
  return preferences.underEnvironment environment

end Preferences

end ConnectorSettings
