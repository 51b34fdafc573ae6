/-
This file says how a connector builds its keys.

Every setting of a connector has a suffix below the connector's own name. A key can be narrowed to
one scope, a bucket or a storage account, and connectors disagree on where the scope goes: before
the suffix, after a word that announces it, or behind the suffix, with the rest of a host name
after it.
-/

namespace ConnectorSettings

inductive KeyLayout where
  /-- `fs.s3a.bucket.SCOPE.endpoint`: the stem, the announcing word, the scope, the suffix. -/
  | scopeFirst (stem announcer : String)
  /-- `fs.azure.account.key.SCOPE.dfs.core.windows.net`: the stem, the suffix, the scope, the
  host. -/
  | scopeLast (stem host : String)
  deriving DecidableEq, Repr

namespace KeyLayout

def stem : KeyLayout → String
  | scopeFirst stem _ => stem
  | scopeLast stem _ => stem

/-- The key of a suffix for every scope at once. -/
def key (layout : KeyLayout) (suffix : String) : String :=
  layout.stem ++ suffix

/-- The key of a suffix narrowed to one scope. -/
def keyFor (layout : KeyLayout) (suffix scope : String) : String :=
  match layout with
  | scopeFirst stem announcer => stem ++ announcer ++ "." ++ scope ++ "." ++ suffix
  | scopeLast stem host => stem ++ suffix ++ "." ++ scope ++ host

/-- The most specific key of a suffix, with or without a scope. -/
def keyUnder (layout : KeyLayout) (suffix : String) : Option String → String
  | some scope => layout.keyFor suffix scope
  | none => layout.key suffix

end KeyLayout

/-- One row of a connector's table. -/
structure Setting where
  name : String
  /-- The key below the connector's own name. -/
  suffix : String
  /-- The text that stands for the setting where nothing else gives one. -/
  fallback : Option String
  /-- The environment variable that overrides every key. -/
  variableName : Option String
  /-- Whether the value is kept out of reports. -/
  secret : Bool
  deriving DecidableEq, Repr

end ConnectorSettings
