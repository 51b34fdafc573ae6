/-
This file decodes the backslash escapes of properties text.

The letters t, n, r and f after a backslash stand for control characters, u announces the number of
a character, and any other character after a backslash stands for itself. The number takes exactly
four characters, base-sixteen digits of which the first may be a plus sign instead; it has to be
the number of a character, which half of a surrogate pair is not.
-/

import ConnectorSettings.Text.Digit

namespace ConnectorSettings

namespace Properties

/-- The character of a number, if it has one. -/
def charOfNumber? (number : Nat) : Option Char :=
  if number.isValidChar then some (Char.ofNat number) else none

/-- What four characters after `\u` denote. -/
def numberedChar? (digits : List Char) : Option Char :=
  let unsigned := match digits with
    | '+' :: rest => rest
    | _ => digits
  (Text.readDigits? 16 unsigned).bind charOfNumber?

/-- What a character after a backslash stands for, unless it announces a number. -/
def escapedChar : Char → Char
  | 't' => '\t'
  | 'n' => '\n'
  | 'r' => '\r'
  | 'f' => '\x0c'
  | other => other

/-- Decodes every escape; `none` if a number is malformed. A backslash that ends the text stands for
nothing. -/
def decode? : List Char → Option (List Char)
  | [] => some []
  | ['\\'] => some []
  | '\\' :: 'u' :: first :: second :: third :: fourth :: text => do
    let char ← numberedChar? [first, second, third, fourth]
    return char :: (← decode? text)
  | '\\' :: 'u' :: _ => none
  | '\\' :: char :: text => (decode? text).map (escapedChar char :: ·)
  | char :: text => (decode? text).map (char :: ·)

end Properties

end ConnectorSettings
