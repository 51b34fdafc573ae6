/-
This file gathers the connectors. Each has a key layout, a table of settings and a name for what its
scope is, and each can check that everything its table says about a view can be read.
-/

import ConnectorSettings.Abfs
import ConnectorSettings.S3

namespace ConnectorSettings

inductive Connector where
  | s3
  | abfs
  deriving DecidableEq, Repr

namespace Connector

instance : Named Connector where
  all := [.s3, .abfs]
  name
    | .s3 => "s3"
    | .abfs => "abfs"

/-- The connector that is meant where none is named. -/
instance : Inhabited Connector := ⟨.s3⟩

def name (connector : Connector) : String :=
  Named.name connector

/-- The names of all connectors, as messages list them. -/
def allNames : String :=
  ", ".intercalate ((Named.all : List Connector).map name)

def layout : Connector → KeyLayout
  | .s3 => S3.layout
  | .abfs => Abfs.layout

def settings : Connector → List Setting
  | .s3 => S3.table
  | .abfs => Abfs.table

/-- What the scope names. -/
def scopeLabel : Connector → String
  | .s3 => "bucket"
  | .abfs => "account"

/-- The connector's view of a map, for all scopes and under the default ecosystem names. -/
def view (connector : Connector) (map : SettingsMap) (environment : Environment) : View :=
  View.global map connector.layout connector.settings environment

/-- Whether every setting of the connector can be read, and the first error otherwise. -/
def validate : Connector → View → Except SettingError Unit
  | .s3, view => (S3.Settings.ofView view).map fun _ => ()
  | .abfs, view => (Abfs.Settings.ofView view).map fun _ => ()

end Connector

end ConnectorSettings
