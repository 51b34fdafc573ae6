/-
This file says what the command line can ask for, and why it may ask for nothing.

There are two commands: one resolves a connector's settings and the other lists its keys. What a
command leaves open, the preferences decide. A command line that asks for help or for the version
runs no command either, but is no mistake.
-/

import ConnectorSettings.Connector
import ConnectorSettings.OutputFormat

namespace ConnectorSettings

namespace CommandLine

structure ResolveRequest where
  connector : Option Connector
  scope : Option String
  /-- Files to read after those of the preferences. -/
  files : List String
  /-- Overrides, each a key and a value with an equals sign between them. -/
  overrides : List String
  /-- Whether no setting is taken from the environment. -/
  ignoreEnvironment : Bool
  format : Option OutputFormat
  showSecrets : Bool
  deriving DecidableEq, Repr

structure KeysRequest where
  connector : Option Connector
  scope : Option String
  format : Option OutputFormat
  deriving DecidableEq, Repr

inductive Command where
  | resolve (request : ResolveRequest)
  | keys (request : KeysRequest)
  deriving DecidableEq, Repr

/-- Why no command is run. -/
inductive Stop where
  | helpWanted
  | versionWanted
  /-- The line says nothing. -/
  | nothingAsked
  | unknownCommand
  | unknownArgument
  /-- A value that its parameter does not take, or a parameter that is left without one. -/
  | invalidValue
  /-- A parameter that occurs again, although once is all it may. -/
  | repeated
  /-- A value for a parameter that takes none. -/
  | unwantedValue
  deriving DecidableEq, Repr

/-- The exit code of a program that stops for this reason. -/
def Stop.exitCode : Stop → UInt8
  | .helpWanted => 0
  | .versionWanted => 0
  | .nothingAsked => 2
  | .unknownCommand => 2
  | .unknownArgument => 2
  | .invalidValue => 2
  | .repeated => 2
  | .unwantedValue => 2

end CommandLine

end ConnectorSettings
