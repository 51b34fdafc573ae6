/-
This file writes properties text in printable ASCII alone.

The characters that have a meaning get a backslash in front, and the blanks among the control
characters that have a letter are written with it. Every other character outside printable ASCII is
written by number, one escape of four digits for each of its UTF-16 code units. A space needs a
backslash wherever it stands in a key, but in a value only at the beginning, where it would count as
a blank behind the separator.
-/

import ConnectorSettings.Text.Digit

namespace ConnectorSettings

namespace Properties

/-! ### Numbers of characters -/

/-- The UTF-16 code units of a character: its number, or a pair of surrogates where that has more
than sixteen bits. -/
def codeUnits (char : Char) : List Nat :=
  let number := char.toNat
  if number < 0x10000 then [number]
  else [0xD800 + (number - 0x10000) / 0x400, 0xDC00 + (number - 0x10000) % 0x400]

/-- The base-sixteen digit of a number below sixteen, in upper case. -/
def upperDigitOf (value : Nat) : Char :=
  if value < 10 then Char.ofNat ('0'.toNat + value) else Char.ofNat ('A'.toNat + (value - 10))

/-- A number of sixteen bits as it is written after a backslash. -/
def numberEscape (unit : Nat) : List Char :=
  ['\\', 'u', upperDigitOf (unit / 0x1000 % 16), upperDigitOf (unit / 0x100 % 16),
    upperDigitOf (unit / 0x10 % 16), upperDigitOf (unit % 16)]

/-! ### Characters and lines -/

/-- The printable characters that are not written as themselves. -/
def asciiMeanings : List Char := ['\\', '=', ':', '#', '!', ' ']

def isPrintableAscii (char : Char) : Bool :=
  ' ' ≤ char && char ≤ '~'

def asciiForm (char : Char) : List Char :=
  if char = '\t' then ['\\', 't']
  else if char = '\n' then ['\\', 'n']
  else if char = '\r' then ['\\', 'r']
  else if char = '\x0c' then ['\\', 'f']
  else if asciiMeanings.contains char then ['\\', char]
  else if isPrintableAscii char then [char]
  else (codeUnits char).flatMap numberEscape

/-- A character behind the first one of a value. -/
def innerAsciiForm (char : Char) : List Char :=
  if char = ' ' then [' '] else asciiForm char

def asciiKey (key : List Char) : List Char :=
  key.flatMap asciiForm

def asciiValue : List Char → List Char
  | [] => []
  | first :: rest => asciiForm first ++ rest.flatMap innerAsciiForm

/-- The line of a pair, without an end. -/
def asciiLine (key value : String) : String :=
  String.ofList (asciiKey key.toList ++ '=' :: asciiValue value.toList)

end Properties

end ConnectorSettings
