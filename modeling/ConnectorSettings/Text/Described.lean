/-
This file writes values for someone who looks at them while searching for a fault: a text in double
quotes, a record with its name and its fields in braces, and a value that may be absent.

In quotes a reader sees exactly what a text holds. Quotes and backslashes get a backslash, the
control characters with a short name use it, and any other character that would not show is given by
its code point. Everything else stands for itself, apostrophes included.

In place of a secret stands a placeholder, which is the same whatever the secret is, so that nothing
but its presence can be seen.
-/

import ConnectorSettings.Text.Digit
import ConnectorSettings.Text.Unprintable

namespace ConnectorSettings

def redacted : String := "[REDACTED]"

namespace Text

/-! ### Quotes -/

/-- A character as it stands between the quotes. The braces around a code point are written by
their own code points here. -/
def quotedChar (char : Char) : List Char :=
  if char = '\x00' then ['\\', '0']
  else if char = '\t' then ['\\', 't']
  else if char = '\n' then ['\\', 'n']
  else if char = '\r' then ['\\', 'r']
  else if char = '\x22' then ['\\', '\x22']
  else if char = '\\' then ['\\', '\\']
  else if isUnprintable char then
    ['\\', 'u', '\x7b'] ++ hexadecimal char.toNat ++ ['\x7d']
  else [char]

def quoted (text : String) : String :=
  String.ofList (['\x22'] ++ text.toList.flatMap quotedChar ++ ['\x22'])

/-! ### Values and records -/

/-- A value that may be absent, given the text of the one that is there. -/
def describedOption : Option String → String
  | some value => "Some(" ++ value ++ ")"
  | none => "None"

/-- The fields behind the first. -/
def describedFields : List (String × String) → String
  | [] => ""
  | field :: rest => ", " ++ field.1 ++ ": " ++ field.2 ++ describedFields rest

/-- A record that has at least one field. -/
def describedRecord (name : String) (first : String × String) (rest : List (String × String)) :
    String :=
  name ++ " \x7b " ++ first.1 ++ ": " ++ first.2 ++ describedFields rest ++ " \x7d"

def describedBool (value : Bool) : String :=
  if value then "true" else "false"

/-! ### Texts and secrets -/

/-- A text that may be absent. -/
def describedText (value : Option String) : String :=
  describedOption (value.map quoted)

/-- A secret that may be absent. -/
def describedSecret (value : Option String) : String :=
  describedOption (value.map fun _ => quoted redacted)

end Text

end ConnectorSettings
