/-
This file reads settings as typed values, and says what can go wrong with one setting: its value
does not match the setting's grammar, or it has no value where one is needed.

A readable type has a grammar, given by a partial reading function, and a name for that grammar to
put into messages. A text that the grammar refuses is always an error that repeats the text; no
malformed value turns into a default.
-/

import ConnectorSettings.Number.Integer
import ConnectorSettings.SettingsMap
import ConnectorSettings.Text.Blank

namespace ConnectorSettings

/-- What goes wrong with a setting. Each case carries what its message names. -/
inductive SettingError where
  /-- A value that is present and is not what was `expected`; `key` names where it was read. -/
  | malformed (key value expected : String)
  /-- A setting without a value, named by the key that would give it one. -/
  | missing (key : String)
  deriving DecidableEq, Repr

namespace SettingError

/-- The key or environment variable the error is about. -/
def key : SettingError → String
  | malformed key _ _ => key
  | missing key => key

def message : SettingError → String
  | malformed key value expected =>
    "invalid value for " ++ key ++ ": '" ++ value ++ "' is not a valid " ++ expected
  | missing key => "missing required setting " ++ key

end SettingError

/-! ### Reading -/

class Readable (α : Type) where
  /-- What the grammar is called in messages. -/
  expected : String
  read? : String → Option α

/-- Reads the text found under `key`. -/
def readValue (α : Type) [Readable α] (key text : String) : Except SettingError α :=
  match Readable.read? text with
  | some value => .ok value
  | none => .error (.malformed key text (Readable.expected α))

theorem readValue_eq_ok_iff {α : Type} [Readable α] {key text : String} {value : α} :
    readValue α key text = .ok value ↔ Readable.read? text = some value := by
  unfold readValue
  cases (Readable.read? text : Option α) with
  | none => exact ⟨nofun, nofun⟩
  | some read => rw [Except.ok.injEq, Option.some.injEq]

theorem readValue_eq_error_iff {α : Type} [Readable α] {key text : String} {error : SettingError} :
    readValue α key text = .error error ↔
      (Readable.read? text : Option α) = none ∧
        error = .malformed key text (Readable.expected α) := by
  unfold readValue
  cases (Readable.read? text : Option α) with
  | none =>
    exact ⟨fun refused => ⟨rfl, (Except.error.inj refused).symm⟩, fun ⟨_, same⟩ => same ▸ rfl⟩
  | some read => exact ⟨nofun, nofun⟩

instance : Readable String where
  expected := "string"
  read? := some

/-- The accepted spellings of the two truth values, in any case. -/
def readBool? (text : String) : Option Bool :=
  let lower := String.ofList (text.toList.map Char.toLower)
  if ["true", "1", "yes", "on"].contains lower then some true
  else if ["false", "0", "no", "off"].contains lower then some false
  else none

instance : Readable Bool where
  expected := "boolean"
  read? := readBool?

instance (kind : IntegerKind) : Readable (BoundedInt kind) where
  expected := "integer"
  read? := BoundedInt.read? kind

namespace SettingsMap

/-- The typed value at a key, read without the blanks around it. -/
def getAs (map : SettingsMap) (α : Type) [Readable α] (key : String) :
    Except SettingError (Option α) :=
  match map.get? key with
  | some text => (readValue α key (Text.trimmed text)).map some
  | none => .ok none

end SettingsMap

end ConnectorSettings
