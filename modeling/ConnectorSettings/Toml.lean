/-
This file reads TOML documents.

A document is a sequence of lines, each of which is blank, opens a table or an element of an array
of tables, or gives a key its value; the tree they build is in `Toml.Document`. Inside brackets a
value may go on over lines and hold comments, inside braces it may not, and only brackets allow a
comma behind the last item.

Two limits hold: at most 79 parts in a key, and at most 79 arrays and inline tables around a value.
The second is what the reading of values recurs on.
-/

import ConnectorSettings.Toml.Document
import ConnectorSettings.Toml.Scalar

namespace ConnectorSettings

namespace Toml

/-- The most parts a key may have, and the most brackets and braces a value may stand in. -/
def depthLimit : Nat := 79

/-! ### Keys -/

def isBareChar (char : Char) : Bool :=
  char.isAlphanum || char == '-' || char == '_'

def keyPart : Scan String := do
  skipBlanks
  let part ← lineText <|> Scan.some? isBareChar
  skipBlanks
  return String.ofList part

/-- The parts of a key, of which each but the first takes a point off the text. -/
def dottedKey : Scan (List String) := do
  let text ← get
  let parts ← Scan.separated keyPart '.' (text.length + 1)
  guard (parts.length ≤ depthLimit)
  return parts

/-! ### Containers -/

/-- The items behind an opening bracket, up to and including the closing one. -/
def listItems (item : Scan Value) : Nat → Scan (List Value)
  | 0 => failure
  | bound + 1 => do
    skipLines
    match ← Scan.optional (Scan.char ']') with
    | some _ => return []
    | none =>
      let first ← item
      skipLines
      match ← Scan.optional (Scan.char ',') with
      | some _ => return first :: (← listItems item bound)
      | none =>
        Scan.char ']'
        return [first]

/-- A key, an equals sign and a value. -/
def pair (item : Scan Value) : Scan (List String × Value) := do
  let key ← dottedKey
  Scan.char '='
  skipBlanks
  let value ← item
  return (key, value)

def inlinePair (item : Scan Value) : Scan (List String × Value) := do
  let found ← pair item
  skipBlanks
  return found

/-- The pairs behind an opening brace, up to and including the closing one, as one table. -/
def inlineTable (item : Scan Value) : Scan Value := do
  let text ← get
  skipBlanks
  match ← Scan.optional (Scan.char '\x7d') with
  | some _ => return .table []
  | none =>
    let pairs ← Scan.separated (inlinePair item) ',' (text.length + 1)
    Scan.char '\x7d'
    let children ← liftM (pairs.foldlM (fun root (key, value) => assign [] key value root) [])
    return .table (toTable children)

/-- A value inside at most `room` further brackets and braces. -/
def value : Nat → Scan Value
  | 0 => scalar
  | room + 1 => do
    match ← get with
    | '[' :: rest =>
      set rest
      return .list (← listItems (value room) (rest.length + 1))
    | '\x7b' :: rest =>
      set rest
      inlineTable (value room)
    | _ => scalar

/-! ### Documents -/

/-- The header of a table or of an element of an array of tables, with the rest of its line. -/
def header : Scan (Bool × List String) := do
  match ← get with
  | '[' :: '[' :: rest =>
    set rest
    let path ← dottedKey
    Scan.word [']', ']']
    endOfLine
    return (true, path)
  | _ =>
    Scan.char '['
    let path ← dottedKey
    Scan.char ']'
    endOfLine
    return (false, path)

/-- Reads line after line into the tree; `current` is the path of the last header. Every line takes
a character off the text, so its length bounds their number. -/
def lines : Nat → List String → Children → Scan Children
  | 0, _, _ => failure
  | bound + 1, current, root => do
    skipBlanks
    match ← get with
    | [] => return root
    | '#' :: _ | '\n' :: _ | '\r' :: _ =>
      endOfLine
      lines bound current root
    | '[' :: _ =>
      let (isElement, path) ← header
      let grown ← liftM (openHeader isElement path root)
      lines bound path grown
    | _ =>
      let (key, found) ← pair (value depthLimit)
      endOfLine
      let grown ← liftM (assign current key found root)
      lines bound current grown

/-- The table of a document; a byte-order mark in front of it does not count. -/
def parse? (text : String) : Option Table :=
  let chars := match text.toList with
    | '\uFEFF' :: rest => rest
    | chars => chars
  ((lines (chars.length + 1) [] []).from? chars).map fun (root, _) => toTable root

end Toml

end ConnectorSettings
