/-
This file takes an ecosystem's name off the front of the keys it forwards.

An ecosystem hands a connector's settings over under its own name, as in
`spark.hadoop.fs.s3a.endpoint`, while the connector knows the bare key. Stripping copies a map into
another in two passes: first the keys that do not begin with the name, as they are, then the keys
that do, with the name taken off. The second pass comes last, so where both spellings of a key are
present the forwarded one wins, whichever stood first. A key that is the bare name forwards
nothing and is left out.
-/

import ConnectorSettings.SettingsMap

namespace ConnectorSettings

namespace SettingsMap

/-- What is left of a key after the ecosystem's name, if it begins with it. -/
def forwarded? (ecosystem key : String) : Option String :=
  (ecosystem.toList.isPrefixOf? key.toList).map String.ofList

/-- The result of stripping one map into another. -/
structure Stripping where
  map : SettingsMap
  /-- How many keys lost the ecosystem's name. -/
  remapped : Nat
  /-- The forwarded keys, each with its bare key, that replaced a different value. -/
  overrides : List (String × String)

namespace Stripping

/-- Moves one forwarded entry to its bare key. -/
def forward (ecosystem : String) (progress : Stripping) (entry : String × String) : Stripping :=
  match forwarded? ecosystem entry.1 with
  | none => progress
  | some bare =>
    if bare.isEmpty then progress
    else
      let replaces := match progress.map.get? bare with
        | some previous => previous != entry.2
        | none => false
      { map := progress.map.insert bare entry.2
        remapped := progress.remapped + 1
        overrides := if replaces then progress.overrides ++ [(entry.1, bare)]
          else progress.overrides }

end Stripping

def stripInto (source : SettingsMap) (ecosystem : String) (target : SettingsMap) : Stripping :=
  let direct := source.entries.filter fun entry => (forwarded? ecosystem entry.1).isNone
  source.entries.foldl (Stripping.forward ecosystem) ⟨target.insertAll direct, 0, []⟩

def stripped (source : SettingsMap) (ecosystem : String) : SettingsMap :=
  (source.stripInto ecosystem empty).map

end SettingsMap

end ConnectorSettings
