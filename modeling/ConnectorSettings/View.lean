/-
This file looks settings up.

A view is a settings map as one connector sees it: through the connector's key layout, for one scope
or for all, under the ecosystem names in use, and with the environment on top. A setting's value is
the first that exists of

1. its environment variable,
2. its scoped key under each ecosystem name, in the order of the names,
3. its scoped key alone,
4. its unscoped key under each ecosystem name,
5. its unscoped key alone,
6. its fallback.

A value comes with its origin. Blanks around it are cut off, except for the fallback, which is a
constant of the table. A variable whose bytes are no text stops the lookup, because it was set to
override the keys and nobody can tell to what.
-/

import ConnectorSettings.Environment
import ConnectorSettings.KeyLayout
import ConnectorSettings.Readable

namespace ConnectorSettings

/-- Where a value came from: a variable, a kind of key, or the table. -/
inductive Origin where
  | environment (name : String)
  | scopedAlias (key : String)
  | scopedKey (key : String)
  | aliasKey (key : String)
  | canonicalKey (key : String)
  | fallback
  deriving DecidableEq, Repr

namespace Origin

/-- The word a terminal report uses. -/
def label : Origin → String
  | environment _ => "env"
  | scopedAlias _ => "scoped alias"
  | scopedKey _ => "scoped"
  | aliasKey _ => "alias"
  | canonicalKey _ => "canonical"
  | fallback => "default"

/-- The word a JSON report uses. -/
def kind : Origin → String
  | environment _ => "environment"
  | scopedAlias _ => "scoped_alias"
  | scopedKey _ => "scoped"
  | aliasKey _ => "alias"
  | canonicalKey _ => "canonical"
  | fallback => "default"

/-- The variable or key the value was read from. -/
def name? : Origin → Option String
  | environment name => some name
  | scopedAlias key => some key
  | scopedKey key => some key
  | aliasKey key => some key
  | canonicalKey key => some key
  | fallback => none

end Origin

/-- A value as text, with its origin. -/
structure Found where
  value : String
  origin : Origin
  deriving DecidableEq, Repr

structure View where
  map : SettingsMap
  layout : KeyLayout
  settings : List Setting
  environment : Environment
  scope : Option String
  /-- The ecosystem names, highest precedence first. -/
  aliases : List String

/-- The ecosystem names that are recognised where no others are given. -/
def defaultAliases : List String := ["spark.hadoop."]

namespace View

/-- A view of all scopes, under the default ecosystem names. -/
def global (map : SettingsMap) (layout : KeyLayout) (settings : List Setting)
    (environment : Environment) : View :=
  ⟨map, layout, settings, environment, none, defaultAliases⟩

/-- Narrows a view to one scope; an empty scope is none. -/
def withScope (view : View) (scope : Option String) : View :=
  { view with scope := scope.filter fun name => !name.isEmpty }

def withAliases (view : View) (aliases : List String) : View :=
  { view with aliases := aliases }

/-! ### Lookup -/

/-- The scoped keys of a setting, in order of precedence; none in a view of all scopes. -/
def scopedCandidates (view : View) (setting : Setting) : List (String × Origin) :=
  match view.scope with
  | none => []
  | some scope =>
    let key := view.layout.keyFor setting.suffix scope
    view.aliases.map (fun ecosystem => (ecosystem ++ key, Origin.scopedAlias (ecosystem ++ key))) ++
      [(key, Origin.scopedKey key)]

/-- The unscoped keys of a setting, in order of precedence. -/
def globalCandidates (view : View) (setting : Setting) : List (String × Origin) :=
  let key := view.layout.key setting.suffix
  view.aliases.map (fun ecosystem => (ecosystem ++ key, Origin.aliasKey (ecosystem ++ key))) ++
    [(key, Origin.canonicalKey key)]

/-- Every key a setting is looked up under, each with the origin it would give the value. -/
def candidates (view : View) (setting : Setting) : List (String × Origin) :=
  view.scopedCandidates setting ++ view.globalCandidates setting

/-- The value of the first candidate that the map holds. -/
def firstPresent (map : SettingsMap) : List (String × Origin) → Option Found
  | [] => none
  | (key, origin) :: rest =>
    match map.get? key with
    | some value => some ⟨Text.trimmed value, origin⟩
    | none => firstPresent map rest

/-- What the keys and the fallback give a setting. -/
def findInMap (view : View) (setting : Setting) : Option Found :=
  match firstPresent view.map (view.candidates setting) with
  | some found => some found
  | none => setting.fallback.map fun value => ⟨value, .fallback⟩

def find (view : View) (setting : Setting) : Except SettingError (Option Found) :=
  match setting.variableName with
  | none => .ok (view.findInMap setting)
  | some name =>
    match view.environment.read name with
    | .present value => .ok (some ⟨Text.trimmed value, .environment name⟩)
    | .undecodable bytes => .error (.malformed name (Utf8.decodeLossy bytes) "UTF-8 string")
    | .absent => .ok (view.findInMap setting)

/-- The value of every setting of the table, in its order. -/
def findAll (view : View) : Except SettingError (List (Setting × Option Found)) :=
  view.settings.mapM fun setting => (view.find setting).map fun found => (setting, found)

/-! ### Typed values -/

/-- The typed value of a setting that may be unset. An error names the variable or key the text
came from, and the unscoped key where it is the fallback. -/
def read (view : View) (α : Type) [Readable α] (setting : Setting) :
    Except SettingError (Option α) := do
  match ← view.find setting with
  | none => return none
  | some found =>
    let key := found.origin.name?.getD (view.layout.key setting.suffix)
    return some (← readValue α key found.value)

/-- The key that the user is told to set: the most specific one without an ecosystem name. -/
def shownKey (view : View) (setting : Setting) : String :=
  view.layout.keyUnder setting.suffix view.scope

/-- The typed value of a setting that must have one. -/
def demand (view : View) (α : Type) [Readable α] (setting : Setting) :
    Except SettingError α := do
  match ← view.read α setting with
  | some value => return value
  | none => throw (.missing (view.shownKey setting))

end View

end ConnectorSettings
