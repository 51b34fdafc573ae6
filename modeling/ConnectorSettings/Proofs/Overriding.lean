/-
This file proves that a variable overrides the keys of its setting and nothing else, and that taking
the variable away gives everything back.

Setting and unsetting are the only changes to an environment, and each changes the bytes of one name
(`bytes?_set`, `bytes?_unset`). A lookup depends on the environment through the variable of its
setting alone (`underVariable_congr`), so what a change does to a lookup is read off that one
name: bytes of a text are its value, other bytes are its error, and only absence leaves the setting
to the map.

A change turns a live environment into a captured copy, which is a map and finds every name in it.
What the copy says of other names than the changed one is what the environment says, as long as the
process has no variable of an impossible name and no two of one name. `Lawful` says so, and only the
settings that the change is not about need it: of two variables of one name a process finds the
first and a copy has the last.
-/

import ConnectorSettings.Environment
import ConnectorSettings.Proofs.Encoding
import ConnectorSettings.Proofs.Merging
import ConnectorSettings.Proofs.Precedence

namespace ConnectorSettings

namespace Environment

/-- Every variable of the process has a name that a process can give it, and no two have the same.
A variable that a process sets takes the place of the one of its name, so a process never makes a
second one (`lawful_live_ofList`). Nothing is asked of a captured copy. -/
def Lawful : Environment → Prop
  | live bindings =>
    (∀ name ∈ Entries.names bindings, isProcessName name) ∧ (Entries.names bindings).Nodup
  | captured _ => True

instance : DecidablePred Lawful
  | live bindings =>
    inferInstanceAs (Decidable ((∀ name ∈ Entries.names bindings, isProcessName name = true) ∧
      (Entries.names bindings).Nodup))
  | captured _ => inferInstanceAs (Decidable True)

/-! ### A captured copy -/

/-- Of several variables of one name, a map keeps the last. -/
theorem lookup?_ofList (name : String) (bindings : Variables) :
    Entries.lookup? name (Variables.ofList bindings) = Entries.lookup? name bindings.reverse := by
  rw [Variables.ofList, Entries.lookup?_foldl_write]
  exact Option.or_none

/-- Variables that are set one after the other make a lawful environment, if they can be set. -/
theorem lawful_live_ofList {bindings : Variables}
    (possible : ∀ name ∈ Entries.names bindings, isProcessName name) :
    (live (Variables.ofList bindings)).Lawful := by
  have distinctAtFirst : (Entries.names ([] : Variables)).Nodup := List.nodup_nil
  refine ⟨fun name member => possible name ?_,
    Entries.nodup_names_foldl_write distinctAtFirst bindings⟩
  by_contra absent
  refine (Entries.lookup?_eq_none_iff name (Variables.ofList bindings)).mp ?_ member
  rw [lookup?_ofList, Entries.lookup?_eq_none_iff, Entries.names, List.map_reverse,
    List.mem_reverse]
  exact absent

/-- A captured copy finds what the environment finds. -/
theorem bytes?_captured_snapshot {environment : Environment} (lawful : environment.Lawful)
    (name : String) : (captured environment.snapshot).bytes? name = environment.bytes? name := by
  cases environment with
  | captured bindings => rfl
  | live bindings =>
    obtain ⟨possible, distinct⟩ := lawful
    show Entries.lookup? name (Variables.ofList bindings) = _
    rw [lookup?_ofList, Entries.lookup?_reverse distinct, bytes?]
    split
    · rfl
    · next impossible =>
      exact (Entries.lookup?_eq_none_iff name bindings).mpr fun member =>
        impossible (possible name member)

/-- Of a process that was started with two variables of one name, the copy finds another. -/
example :
    let environment : Environment := .live [("AWS_ENDPOINT", [0x61]), ("AWS_ENDPOINT", [0x62])]
    environment.bytes? "AWS_ENDPOINT" = some [0x61] ∧
      (captured environment.snapshot).bytes? "AWS_ENDPOINT" = some [0x62] := by
  decide

/-! ### One name at a time -/

theorem bytes?_set (environment : Environment) (name other : String) (value : Utf8.Bytes) :
    (environment.set name value).bytes? other =
      if name = other then some value else (captured environment.snapshot).bytes? other :=
  Entries.lookup?_write name other value environment.snapshot

theorem bytes?_unset (environment : Environment) (name other : String) :
    (environment.unset name).bytes? other =
      if name = other then none else (captured environment.snapshot).bytes? other :=
  Entries.lookup?_erase name other environment.snapshot

/-- Setting a variable and unsetting it again leaves no trace of the value. -/
theorem bytes?_unset_set (environment : Environment) (name other : String) (value : Utf8.Bytes) :
    ((environment.set name value).unset name).bytes? other =
      (environment.unset name).bytes? other := by
  rw [bytes?_unset, bytes?_unset]
  by_cases same : name = other
  · rw [if_pos same, if_pos same]
  · have kept : (captured (environment.set name value).snapshot).bytes? other =
        (environment.set name value).bytes? other := rfl
    rw [if_neg same, if_neg same, kept, bytes?_set, if_neg same]

/-! ### What a variable says -/

theorem read_of_encode {environment : Environment} {name text : String}
    (given : environment.bytes? name = some (Utf8.encode text)) :
    environment.read name = .present text := by
  have decoded : Utf8.decode? (Utf8.encode text) = some text :=
    (Utf8.decode?_eq_some_iff _ _).mpr rfl
  rw [read, given]
  simp only [decoded]

end Environment

namespace View

/-- An environment enters a lookup through the bytes of the setting's own variable alone. -/
theorem find_overMap_congr {layout : KeyLayout} {settings : List Setting}
    {left right : Environment} {scope : Option String} {aliases : List String} {map : SettingsMap}
    {setting : Setting} (same : ∀ name, setting.variableName = some name →
      left.bytes? name = right.bytes? name) :
    (overMap layout settings left scope aliases map).find setting =
      (overMap layout settings right scope aliases map).find setting := by
  rw [find_overMap, find_overMap, underVariable_congr same]

end View

end ConnectorSettings
