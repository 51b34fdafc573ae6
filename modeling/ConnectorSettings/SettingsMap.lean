/-
This file holds the settings map: the flat, ordered collection of keys and values that every
source of settings is read into and every setting is looked up in.

A key occurs once. Writing a key that is present replaces its value and keeps its place, so the
order of a map is the order in which its keys first appeared since they were last absent; erasing
keeps the order of the rest. That no key occurs twice is a field of the type, and every operation
re-establishes it.

Two views describe a map completely, the list of its keys and the value at a key, and the lemmas
below say what each operation does to them. Nothing outside this file needs to look at the entries
another way.
-/

import ConnectorSettings.Entries

namespace ConnectorSettings

structure SettingsMap where
  entries : List (String × String)
  distinct : (Entries.names entries).Nodup
  deriving DecidableEq

namespace SettingsMap

/-! ### Operations -/

def empty : SettingsMap := ⟨[], List.nodup_nil⟩

instance : EmptyCollection SettingsMap := ⟨empty⟩

instance : Inhabited SettingsMap := ⟨empty⟩

def keys (map : SettingsMap) : List String :=
  Entries.names map.entries

def toList (map : SettingsMap) : List (String × String) :=
  map.entries

def size (map : SettingsMap) : Nat :=
  map.entries.length

def isEmpty (map : SettingsMap) : Bool :=
  map.entries.isEmpty

def get? (map : SettingsMap) (key : String) : Option String :=
  Entries.lookup? key map.entries

def contains (map : SettingsMap) (key : String) : Bool :=
  (map.get? key).isSome

def insert (map : SettingsMap) (key value : String) : SettingsMap :=
  ⟨Entries.write key value map.entries, Entries.nodup_names_write key value map.distinct⟩

def erase (map : SettingsMap) (key : String) : SettingsMap :=
  ⟨Entries.erase key map.entries, Entries.nodup_names_erase key map.distinct⟩

/-- `insert`, and the value that the key had before. -/
def getThenInsert? (map : SettingsMap) (key value : String) : Option String × SettingsMap :=
  ((Entries.getThenWrite? key value map.entries).1,
    ⟨(Entries.getThenWrite? key value map.entries).2, by
      rw [Entries.getThenWrite?_eq]
      exact (map.insert key value).distinct⟩)

/-- `erase`, and the value that the key had before. -/
def getThenErase? (map : SettingsMap) (key : String) : Option String × SettingsMap :=
  ((Entries.getThenErase? key map.entries).1,
    ⟨(Entries.getThenErase? key map.entries).2, by
      rw [Entries.getThenErase?_eq key map.distinct]
      exact (map.erase key).distinct⟩)

/-- Writes pairs one after the other, so a later pair with the same key wins. -/
def insertAll (map : SettingsMap) (pairs : List (String × String)) : SettingsMap :=
  pairs.foldl (fun written pair => written.insert pair.1 pair.2) map

def ofList (pairs : List (String × String)) : SettingsMap :=
  empty.insertAll pairs

/-- Writes the entries of another map over this one. -/
def merge (map other : SettingsMap) : SettingsMap :=
  map.insertAll other.entries

/-- The entries in the order of their keys, by code point. -/
def sortedByKey (map : SettingsMap) : List (String × String) :=
  map.entries.mergeSort fun left right => !(right.1 < left.1)

/-- Whether two maps hold the same values at the same keys, in whatever order. -/
def sameContents (left right : SettingsMap) : Bool :=
  left.size == right.size && left.entries.all fun entry => right.get? entry.1 == some entry.2

/-! ### The two views -/

@[ext]
theorem ext {left right : SettingsMap} (same : left.entries = right.entries) : left = right := by
  cases left
  cases right
  cases same
  rfl

@[simp]
theorem keys_empty : (empty : SettingsMap).keys = [] := rfl

@[simp]
theorem get?_empty (key : String) : (empty : SettingsMap).get? key = none := rfl

theorem keys_insert (map : SettingsMap) (key value : String) :
    (map.insert key value).keys = if key ∈ map.keys then map.keys else map.keys ++ [key] :=
  Entries.names_write key value map.entries

theorem get?_insert (map : SettingsMap) (key value name : String) :
    (map.insert key value).get? name = if key = name then some value else map.get? name :=
  Entries.lookup?_write key name value map.entries

theorem keys_erase (map : SettingsMap) (key : String) :
    (map.erase key).keys = map.keys.filter fun name => name ≠ key :=
  Entries.names_erase key map.entries

theorem get?_erase (map : SettingsMap) (key name : String) :
    (map.erase key).get? name = if key = name then none else map.get? name :=
  Entries.lookup?_erase key name map.entries

theorem getThenInsert?_eq (map : SettingsMap) (key value : String) :
    map.getThenInsert? key value = (map.get? key, map.insert key value) := by
  have given := Entries.getThenWrite?_eq key value map.entries
  exact Prod.ext (congrArg Prod.fst given :) (SettingsMap.ext (congrArg Prod.snd given :))

theorem getThenErase?_eq (map : SettingsMap) (key : String) :
    map.getThenErase? key = (map.get? key, map.erase key) := by
  have given := Entries.getThenErase?_eq key map.distinct
  exact Prod.ext (congrArg Prod.fst given :) (SettingsMap.ext (congrArg Prod.snd given :))

theorem get?_eq_none_iff (map : SettingsMap) (key : String) :
    map.get? key = none ↔ key ∉ map.keys :=
  Entries.lookup?_eq_none_iff key map.entries

theorem nodup_keys (map : SettingsMap) : map.keys.Nodup :=
  map.distinct

end SettingsMap

end ConnectorSettings
