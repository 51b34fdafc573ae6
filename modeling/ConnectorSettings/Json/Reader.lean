/-
This file reads JSON.

The grammar is the standard one without numbers: blanks are space, tab and the two line
characters, a text holds no control character below the space, and a character outside the basic
plane may be escaped as a pair of surrogates but half a pair is refused. Nothing but blanks may
follow the value.

A value is read by recursion on a bound for the number of calls still to come. Every second call at
the least takes a character off the text, so twice its length is always enough.
-/

import ConnectorSettings.Json
import ConnectorSettings.Text.Digit

namespace ConnectorSettings

namespace Json

def isBlank (char : Char) : Bool :=
  char == ' ' || char == '\t' || char == '\n' || char == '\r'

def skipBlanks (text : List Char) : List Char :=
  text.dropWhile isBlank

/-! ### Texts -/

/-- What a character after a backslash stands for, unless it announces a number. -/
def escapedChar? : Char → Option Char
  | '\x22' => some '\x22'
  | '\\' => some '\\'
  | '/' => some '/'
  | 'b' => some '\x08'
  | 'f' => some '\x0c'
  | 'n' => some '\n'
  | 'r' => some '\r'
  | 't' => some '\t'
  | _ => none

def isHighSurrogate (unit : Nat) : Bool := 0xD800 ≤ unit && unit ≤ 0xDBFF

def isLowSurrogate (unit : Nat) : Bool := 0xDC00 ≤ unit && unit ≤ 0xDFFF

/-- The character that a pair of surrogates encodes. -/
def pairedChar (high low : Nat) : Char :=
  Char.ofNat (0x10000 + (high - 0xD800) * 0x400 + (low - 0xDC00))

def unit? (first second third fourth : Char) : Option Nat :=
  Text.readDigits? 16 [first, second, third, fourth]

/-- Puts a character in front of the text that was read. -/
def consText (char : Char) (read : Option (List Char × List Char)) :
    Option (List Char × List Char) :=
  read.map fun (value, rest) => (char :: value, rest)

/-- The text up to the closing quote, and what follows it. -/
def readText : List Char → Option (List Char × List Char)
  | [] => none
  | '\x22' :: rest => some ([], rest)
  | '\\' :: 'u' :: a :: b :: c :: d :: rest =>
    match unit? a b c d with
    | none => none
    | some unit =>
      if isHighSurrogate unit then
        match rest with
        | '\\' :: 'u' :: e :: f :: g :: h :: rest =>
          match unit? e f g h with
          | none => none
          | some low =>
            if isLowSurrogate low then consText (pairedChar unit low) (readText rest) else none
        | _ => none
      else if isLowSurrogate unit then none
      else consText (Char.ofNat unit) (readText rest)
  | '\\' :: char :: rest =>
    match escapedChar? char with
    | some meant => consText meant (readText rest)
    | none => none
  | char :: rest =>
    if char.toNat < 0x20 || char == '\\' then none else consText char (readText rest)

/-! ### Values -/

/-- What follows a fixed word, if the text begins with it. -/
def expect? (word text : List Char) : Option (List Char) :=
  word.isPrefixOf? text

mutual

def readValue : Nat → List Char → Option (Json × List Char)
  | 0, _ => none
  | bound + 1, input =>
    match skipBlanks input with
    | '\x22' :: rest => (readText rest).map fun (value, rest) => (.text (String.ofList value), rest)
    | '[' :: rest =>
      match skipBlanks rest with
      | ']' :: rest => some (list [], rest)
      | rest => (readItems bound rest).map fun (items, rest) => (list items, rest)
    | '\x7b' :: rest =>
      match skipBlanks rest with
      | '\x7d' :: rest => some (record [], rest)
      | rest => (readMembers bound rest).map fun (members, rest) => (record members, rest)
    | 'n' :: rest => (expect? ['u', 'l', 'l'] rest).map fun rest => (null, rest)
    | 't' :: rest => (expect? ['r', 'u', 'e'] rest).map fun rest => (bool true, rest)
    | 'f' :: rest => (expect? ['a', 'l', 's', 'e'] rest).map fun rest => (bool false, rest)
    | _ => none

/-- One item or more, up to and including the closing bracket. -/
def readItems : Nat → List Char → Option (List Json × List Char)
  | 0, _ => none
  | bound + 1, input =>
    match readValue bound input with
    | none => none
    | some (item, rest) =>
      match skipBlanks rest with
      | ',' :: rest => (readItems bound rest).map fun (items, rest) => (item :: items, rest)
      | ']' :: rest => some ([item], rest)
      | _ => none

/-- One member or more, up to and including the closing brace. -/
def readMembers : Nat → List Char → Option (List (String × Json) × List Char)
  | 0, _ => none
  | bound + 1, input =>
    match skipBlanks input with
    | '\x22' :: rest =>
      match readText rest with
      | none => none
      | some (name, rest) =>
        match skipBlanks rest with
        | ':' :: rest =>
          match readValue bound rest with
          | none => none
          | some (value, rest) =>
            match skipBlanks rest with
            | ',' :: rest =>
              (readMembers bound rest).map fun (members, rest) =>
                ((String.ofList name, value) :: members, rest)
            | '\x7d' :: rest => some ([(String.ofList name, value)], rest)
            | _ => none
        | _ => none
    | _ => none

end

/-- The value that a whole text denotes. -/
def parse? (text : String) : Option Json :=
  match readValue (2 * text.toList.length + 1) text.toList with
  | some (value, rest) => if (skipBlanks rest).isEmpty then some value else none
  | none => none

end Json

end ConnectorSettings
