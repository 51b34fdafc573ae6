/-
This file cuts a properties text into logical lines.

A physical line ends at a line feed, with or without a carriage return before it. Leading blanks
of a physical line never count. A line that ends in an odd number of backslashes goes on in the
next one: the last backslash is dropped and the next line appended, so an even number, which stands
for backslashes in the text, ends the line. Blank lines and comments are skipped between logical
lines, but not inside one, where they are text like any other.

A logical line knows the number of the physical line it began on, since that is where a reader looks
for it.
-/

import ConnectorSettings.Text.Blank

namespace ConnectorSettings

namespace Properties

/-- The lines of a text. A text that ends with a line feed has no empty line after it; a carriage
return that no line feed follows is part of its line. -/
def physicalLines : List Char → List (List Char)
  | [] => []
  | '\n' :: text => [] :: physicalLines text
  | '\r' :: '\n' :: text => [] :: physicalLines text
  | char :: text =>
    match physicalLines text with
    | [] => [[char]]
    | line :: lines => (char :: line) :: lines

/-! ### Continuation -/

def trailingBackslashes (line : List Char) : Nat :=
  (line.reverse.takeWhile (· == '\\')).length

/-- Whether the next physical line belongs to this one. -/
def isContinued (line : List Char) : Bool :=
  trailingBackslashes line % 2 == 1

/-- A line without the backslash that continues it. -/
def continuedBody (line : List Char) : List Char :=
  if isContinued line then line.dropLast else line

/-- Blank lines and comments, told by a line without its leading blanks. -/
def isSkipped : List Char → Bool
  | [] => true
  | first :: _ => first == '#' || first == '!'

structure LogicalLine where
  number : Nat
  text : List Char
  deriving DecidableEq, Repr

/-- Joins physical lines, the first of which has the given number. The pending line is one whose
continuation comes next; at the end of the text it stands as it is. -/
def joinLines : Nat → Option LogicalLine → List (List Char) → List LogicalLine
  | _, pending, [] => pending.toList
  | number, pending, physical :: rest =>
    let line := Text.trimStart physical
    if pending.isNone && isSkipped line then joinLines (number + 1) none rest
    else
      let start := pending.getD ⟨number, []⟩
      let joined : LogicalLine := ⟨start.number, start.text ++ continuedBody line⟩
      if isContinued line then joinLines (number + 1) (some joined) rest
      else joined :: joinLines (number + 1) none rest

def logicalLines (text : List Char) : List LogicalLine :=
  joinLines 1 none (physicalLines text)

end Properties

end ConnectorSettings
