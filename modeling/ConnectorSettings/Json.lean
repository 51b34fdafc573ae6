/-
This file holds JSON values, as far as settings need them, and writes them: no document that this
library reads or writes has a number in it, so there is no case for one.

A record is the list of its members in the order in which they are written, and nothing keeps a
name from occurring twice; what a repeated name means is up to whoever reads the record.

A text is written as it stands, except for the quote, the backslash and the control characters
below the space. Those with a short escape use it and the others are given by their number in lower
case.

Compact and indented writing are one function with two layouts, which differ only in the white space
they put after the brackets, the commas and the colons. A container without elements is written
without white space in either.
-/

import ConnectorSettings.Text.Digit

namespace ConnectorSettings

inductive Json where
  | null
  | bool (value : Bool)
  | text (value : String)
  | list (items : List Json)
  | record (members : List (String × Json))

namespace Json

/-- A text, or null in its absence. -/
def ofText? : Option String → Json
  | some value => text value
  | none => null

/-! ### Writing -/

/-- A character inside quotes. -/
def escaped (char : Char) : List Char :=
  if char = '\x22' then ['\\', '\x22']
  else if char = '\\' then ['\\', '\\']
  else if char = '\x08' then ['\\', 'b']
  else if char = '\t' then ['\\', 't']
  else if char = '\n' then ['\\', 'n']
  else if char = '\x0c' then ['\\', 'f']
  else if char = '\r' then ['\\', 'r']
  else if char.toNat < 0x20 then
    ['\\', 'u'] ++ Text.zeroPadded 4 (Text.hexadecimal char.toNat)
  else [char]

def quote (value : String) : List Char :=
  ['\x22'] ++ value.toList.flatMap escaped ++ ['\x22']

/-- The white space of a way of writing. -/
structure Layout where
  /-- What stands before an element or a closing bracket, by the number of open brackets. -/
  lineBreak : Nat → List Char
  afterColon : List Char

def compactLayout : Layout := ⟨fun _ => [], []⟩

/-- One element a line, two spaces for each open bracket. -/
def indentedLayout : Layout :=
  ⟨fun depth => '\n' :: List.replicate (2 * depth) ' ', [' ']⟩

mutual

/-- A value inside `depth` open brackets. -/
def write (layout : Layout) (depth : Nat) : Json → List Char
  | null => ['n', 'u', 'l', 'l']
  | bool true => ['t', 'r', 'u', 'e']
  | bool false => ['f', 'a', 'l', 's', 'e']
  | text value => quote value
  | list [] => ['[', ']']
  | list (first :: rest) =>
    ['['] ++ layout.lineBreak (depth + 1) ++ write layout (depth + 1) first ++
      writeItems layout depth rest
  | record [] => ['\x7b', '\x7d']
  | record (first :: rest) =>
    ['\x7b'] ++ layout.lineBreak (depth + 1) ++ writeMember layout depth first ++
      writeMembers layout depth rest

/-- The items after the first, and the closing bracket. -/
def writeItems (layout : Layout) (depth : Nat) : List Json → List Char
  | [] => layout.lineBreak depth ++ [']']
  | item :: rest =>
    [','] ++ layout.lineBreak (depth + 1) ++ write layout (depth + 1) item ++
      writeItems layout depth rest

def writeMember (layout : Layout) (depth : Nat) : String × Json → List Char
  | (name, value) => quote name ++ [':'] ++ layout.afterColon ++ write layout (depth + 1) value

/-- The members after the first, and the closing brace. -/
def writeMembers (layout : Layout) (depth : Nat) : List (String × Json) → List Char
  | [] => layout.lineBreak depth ++ ['\x7d']
  | member :: rest =>
    [','] ++ layout.lineBreak (depth + 1) ++ writeMember layout depth member ++
      writeMembers layout depth rest

end

def compact (value : Json) : String :=
  String.ofList (write compactLayout 0 value)

def indented (value : Json) : String :=
  String.ofList (write indentedLayout 0 value)

end Json

end ConnectorSettings
