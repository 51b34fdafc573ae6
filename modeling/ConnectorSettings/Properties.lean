/-
This file reads settings from properties text, the format of `spark-defaults.conf`.

A logical line holds one entry. Its key ends at the first equals sign, colon or blank that no
backslash precedes; one equals sign or colon, with any blanks around it, separates the key from the
value, and everything after that is the value, trailing blanks included. Escapes are decoded in
both. An entry needs a key, so a line whose key is empty is malformed, and so is one with a
malformed escape; the first malformed line stops the reading.
-/

import ConnectorSettings.Properties.Escape
import ConnectorSettings.Properties.Line
import ConnectorSettings.SettingsMap

namespace ConnectorSettings

namespace Properties

/-- Where a key ends if no backslash precedes the character. -/
def endsKey (char : Char) : Bool :=
  char == '=' || char == ':' || Text.isBlank char

/-- A line as its key and all that follows, both with their escapes. -/
def splitKey : List Char → List Char × List Char
  | [] => ([], [])
  | '\\' :: char :: text =>
    let (key, rest) := splitKey text
    ('\\' :: char :: key, rest)
  | char :: text =>
    if endsKey char then ([], char :: text)
    else
      let (key, rest) := splitKey text
      (char :: key, rest)

/-- What follows a key without the separator and the blanks around it. -/
def dropSeparator (text : List Char) : List Char :=
  match Text.trimStart text with
  | '=' :: rest => Text.trimStart rest
  | ':' :: rest => Text.trimStart rest
  | rest => rest

/-- The key and value of a line. -/
def entry? (line : List Char) : Option (String × String) := do
  let (rawKey, rest) := splitKey line
  let key ← decode? rawKey
  guard !key.isEmpty
  let value ← decode? (dropSeparator rest)
  return (String.ofList key, String.ofList value)

/-- A line that holds no entry. -/
structure Malformed where
  number : Nat
  content : String
  deriving DecidableEq, Repr

def entryOf (line : LogicalLine) : Except Malformed (String × String) :=
  match entry? line.text with
  | some entry => .ok entry
  | none => .error ⟨line.number, String.ofList line.text⟩

/-- The entries of a text, in order and with repeated keys. -/
def entries (text : String) : Except Malformed (List (String × String)) :=
  (logicalLines text.toList).mapM entryOf

def parse (text : String) : Except Malformed SettingsMap :=
  (entries text).map SettingsMap.ofList

end Properties

end ConnectorSettings
