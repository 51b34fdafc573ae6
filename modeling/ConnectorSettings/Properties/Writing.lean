/-
This file writes properties text.

A backslash goes in front of every character that has a meaning of its own: the backslash, the
separators, the signs that begin a comment, and every blank. The blanks that have a letter are
written with the letter, so that no line ends inside a key or value. A line leaves its writer some
freedom, in the blanks at its beginning and around the separator, and in the separator, which may be
blanks alone.
-/

import ConnectorSettings.Text.Blank

namespace ConnectorSettings

namespace Properties

/-- The characters that are not written as themselves. -/
def hasMeaning (char : Char) : Bool :=
  ['\\', '=', ':', '#', '!'].contains char || Text.isBlank char

/-- A character of a key or value as it is written. -/
def escapedForm (char : Char) : List Char :=
  if char = '\t' then ['\\', 't']
  else if char = '\n' then ['\\', 'n']
  else if char = '\r' then ['\\', 'r']
  else if char = '\x0c' then ['\\', 'f']
  else if hasMeaning char then ['\\', char]
  else [char]

def escaped (text : List Char) : List Char :=
  text.flatMap escapedForm

/-- What stands between key and value, blanks apart. -/
inductive Separator where
  | equals
  | colon
  | blanksOnly
  deriving DecidableEq, Repr

def Separator.sign : Separator → List Char
  | equals => ['=']
  | colon => [':']
  | blanksOnly => []

/-- One entry and the way in which it is written. The blanks at the beginning may even end lines,
those around the separator may not. -/
structure WrittenLine where
  key : String
  value : String
  leading : List Char
  before : List Char
  separator : Separator
  after : List Char
  named : key ≠ ""
  leading_blank : ∀ char ∈ leading, Text.isBlank char = true
  before_blank : ∀ char ∈ before, Text.isBlank char = true ∧ char ≠ '\n'
  after_blank : ∀ char ∈ after, Text.isBlank char = true ∧ char ≠ '\n'
  parted : separator = .blanksOnly → before ++ after ≠ []

namespace WrittenLine

def pair (line : WrittenLine) : String × String :=
  (line.key, line.value)

/-- What stands between the key and the value. -/
def gap (line : WrittenLine) : List Char :=
  line.before ++ line.separator.sign ++ line.after

def text (line : WrittenLine) : List Char :=
  line.leading ++ escaped line.key.toList ++ line.gap ++ escaped line.value.toList ++ ['\n']

end WrittenLine

def write (lines : List WrittenLine) : String :=
  String.ofList (lines.flatMap WrittenLine.text)

end Properties

end ConnectorSettings
