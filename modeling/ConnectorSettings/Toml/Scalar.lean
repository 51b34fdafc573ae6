/-
This file reads the scalars of TOML: texts, numbers, truth values and moments.

Numbers may have single underscores between two digits. An integer has to fit sixty-four bits with a
sign. A floating-point number is the nearest one of its format; beyond the largest, a negative one
is minus infinity and a positive one is refused.
-/

import ConnectorSettings.Number.Integer
import ConnectorSettings.Toml.Moment
import ConnectorSettings.Toml.Scan
import ConnectorSettings.Toml.Value

namespace ConnectorSettings

namespace Toml

/-! ### Texts -/

/-- What stands for itself between double quotes, on one line. -/
def isBasicChar (char : Char) : Bool :=
  char != '\x22' && char != '\\' && isCommentChar char

/-- What stands between apostrophes, on one line. -/
def isLiteralChar (char : Char) : Bool :=
  char != '\x27' && isCommentChar char

/-- The character that a number of base-sixteen digits denotes. -/
def numberedChar? (digits : List Char) : Option Char :=
  (Text.readDigits? 16 digits).bind fun number =>
    if number.isValidChar then some (Char.ofNat number) else none

/-- What a character after a backslash stands for, unless it announces a number. -/
def escapedChar? : Char → Option Char
  | 'b' => some '\x08'
  | 'f' => some '\x0c'
  | 'n' => some '\n'
  | 'r' => some '\r'
  | 't' => some '\t'
  | '\\' => some '\\'
  | '\x22' => some '\x22'
  | _ => none

/-- Puts a character in front of the text that was read. -/
def consChar (char : Char) (read : Option (List Char × List Char)) :
    Option (List Char × List Char) :=
  read.map fun (value, rest) => (char :: value, rest)

/-- The text up to the closing quote of a basic text on one line. -/
def basicBody : List Char → Option (List Char × List Char)
  | [] => none
  | '\x22' :: rest => some ([], rest)
  | '\\' :: 'u' :: a :: b :: c :: d :: rest =>
    match numberedChar? [a, b, c, d] with
    | some char => consChar char (basicBody rest)
    | none => none
  | '\\' :: 'U' :: a :: b :: c :: d :: e :: f :: g :: h :: rest =>
    match numberedChar? [a, b, c, d, e, f, g, h] with
    | some char => consChar char (basicBody rest)
    | none => none
  | '\\' :: char :: rest =>
    match escapedChar? char with
    | some meant => consChar meant (basicBody rest)
    | none => none
  | char :: rest => if isBasicChar char then consChar char (basicBody rest) else none

/-- Where the reading of a basic text on several lines stands. -/
inductive BlockState where
  /-- In the text. -/
  | inText
  /-- Behind a backslash that has to be followed by blanks and a line end. -/
  | beforeBreak
  /-- Behind such a line end, where blanks and line ends are dropped. -/
  | dropping
  deriving DecidableEq

/-- The text up to the closing quotes of a basic text on several lines. One or two quotes stand for
themselves, also in front of the three that close it. -/
def basicBlock : BlockState → List Char → Option (List Char × List Char)
  | _, [] => none
  | .beforeBreak, '\n' :: rest => basicBlock .dropping rest
  | .beforeBreak, '\r' :: '\n' :: rest => basicBlock .dropping rest
  | .beforeBreak, char :: rest => if isTomlBlank char then basicBlock .beforeBreak rest else none
  | .dropping, ' ' :: rest => basicBlock .dropping rest
  | .dropping, '\t' :: rest => basicBlock .dropping rest
  | .dropping, '\n' :: rest => basicBlock .dropping rest
  | .dropping, '\r' :: '\n' :: rest => basicBlock .dropping rest
  | _, '\x22' :: '\x22' :: '\x22' :: '\x22' :: '\x22' :: rest => some (['\x22', '\x22'], rest)
  | _, '\x22' :: '\x22' :: '\x22' :: '\x22' :: rest => some (['\x22'], rest)
  | _, '\x22' :: '\x22' :: '\x22' :: rest => some ([], rest)
  | _, '\x22' :: rest => consChar '\x22' (basicBlock .inText rest)
  | _, '\n' :: rest => consChar '\n' (basicBlock .inText rest)
  | _, '\r' :: '\n' :: rest => consChar '\n' (basicBlock .inText rest)
  | _, '\\' :: 'u' :: a :: b :: c :: d :: rest =>
    match numberedChar? [a, b, c, d] with
    | some char => consChar char (basicBlock .inText rest)
    | none => none
  | _, '\\' :: 'U' :: a :: b :: c :: d :: e :: f :: g :: h :: rest =>
    match numberedChar? [a, b, c, d, e, f, g, h] with
    | some char => consChar char (basicBlock .inText rest)
    | none => none
  | _, '\\' :: '\n' :: rest => basicBlock .dropping rest
  | _, '\\' :: '\r' :: '\n' :: rest => basicBlock .dropping rest
  | _, '\\' :: char :: rest =>
    if isTomlBlank char then basicBlock .beforeBreak rest
    else
      match escapedChar? char with
      | some meant => consChar meant (basicBlock .inText rest)
      | none => none
  | _, char :: rest => if isBasicChar char then consChar char (basicBlock .inText rest) else none

/-- The text up to the closing apostrophe of a literal text on one line. -/
def literalBody : List Char → Option (List Char × List Char)
  | [] => none
  | '\x27' :: rest => some ([], rest)
  | char :: rest => if isLiteralChar char then consChar char (literalBody rest) else none

/-- The text up to the closing apostrophes of a literal text on several lines. -/
def literalBlock : List Char → Option (List Char × List Char)
  | [] => none
  | '\x27' :: '\x27' :: '\x27' :: '\x27' :: '\x27' :: rest => some (['\x27', '\x27'], rest)
  | '\x27' :: '\x27' :: '\x27' :: '\x27' :: rest => some (['\x27'], rest)
  | '\x27' :: '\x27' :: '\x27' :: rest => some ([], rest)
  | '\x27' :: rest => consChar '\x27' (literalBlock rest)
  | '\n' :: rest => consChar '\n' (literalBlock rest)
  | '\r' :: '\n' :: rest => consChar '\n' (literalBlock rest)
  | char :: rest => if isLiteralChar char then consChar char (literalBlock rest) else none

/-- A text on one line, as it also stands in keys. -/
def lineText : Scan (List Char) := fun text =>
  match text with
  | '\x22' :: rest => basicBody rest
  | '\x27' :: rest => literalBody rest
  | _ => none

/-- A text in any of its four forms. A line end directly behind three opening marks is dropped. -/
def anyText : Scan (List Char) := do
  match ← get with
  | '\x22' :: '\x22' :: '\x22' :: rest =>
    set rest
    let _ ← Scan.optional lineFeed
    fun text => basicBlock .inText text
  | '\x27' :: '\x27' :: '\x27' :: rest =>
    set rest
    let _ ← Scan.optional lineFeed
    fun text => literalBlock text
  | _ => lineText

/-! ### Numbers -/

/-- Digits behind the first, each with an underscore in front of it or not. -/
def moreDigits (accepts : Char → Bool) : List Char → List Char × List Char
  | [] => ([], [])
  | '_' :: char :: rest =>
    if accepts char then
      let (digits, rest) := moreDigits accepts rest
      (char :: digits, rest)
    else ([], '_' :: char :: rest)
  | char :: rest =>
    if accepts char then
      let (digits, rest) := moreDigits accepts rest
      (char :: digits, rest)
    else ([], char :: rest)

/-- One digit or more, without the underscores between them. -/
def digitGroup (accepts : Char → Bool) : Scan (List Char) := do
  let first ← Scan.satisfying accepts
  let more ← fun text => some (moreDigits accepts text)
  return first :: more

/-- A sign, and whether it is a minus; without one a number is positive. -/
def sign : Scan Bool := fun text =>
  match text with
  | '-' :: rest => some (true, rest)
  | '+' :: rest => some (false, rest)
  | _ => some (false, text)

/-- A sign and the digits of a whole number, of which only the number zero begins with a zero. -/
def wholePart : Scan (Bool × List Char) := do
  let negative ← sign
  match ← get with
  | '0' :: rest =>
    set rest
    return (negative, ['0'])
  | _ => return (negative, ← digitGroup Text.isDigit)

/-- The exponent behind its letter. -/
def exponentPart : Scan Int := do
  let _ ← Scan.satisfying fun char => char == 'e' || char == 'E'
  let negative ← sign
  let digits ← digitGroup Text.isDigit
  let size := (Text.decimalNumber digits : Int)
  return if negative then -size else size

def fractionPart : Scan (List Char) := do
  Scan.char '.'
  digitGroup Text.isDigit

/-- The number `digits * 10 ^ exponent`. The place of its first digit tells at once whether it is
far outside the format, so no power of ten is ever large. -/
def realOf? (negative : Bool) (digits : List Char) (exponent : Int) : Option Real :=
  let significant := digits.dropWhile (· == '0')
  let place := (significant.length : Int) + exponent
  let tooLarge := if negative then some (Real.infinite true) else none
  if significant.isEmpty || place < -400 then some (.finite negative Binary64.zero)
  else if 400 < place then tooLarge
  else
    let number := Text.decimalNumber significant
    let nearest :=
      if 0 ≤ exponent then Binary64.ofRatio? (number * Nat.pow 10 exponent.toNat) 1
      else Binary64.ofRatio? number (Nat.pow 10 (-exponent).toNat)
    match nearest with
    | some magnitude => some (.finite negative magnitude)
    | none => tooLarge

/-- A number with a fraction, an exponent or both. -/
def decimalReal : Scan Real := do
  let (negative, whole) ← wholePart
  match ← Scan.optional fractionPart with
  | some fraction =>
    let exponent ← Scan.optional exponentPart
    liftM (realOf? negative (whole ++ fraction) (exponent.getD 0 - fraction.length))
  | none =>
    let exponent ← exponentPart
    liftM (realOf? negative whole exponent)

def specialReal : Scan Real := do
  let negative ← sign
  (do Scan.word ['i', 'n', 'f']; return Real.infinite negative) <|>
    (do Scan.word ['n', 'a', 'n']; return Real.notANumber)

/-- Digits of a base behind the mark that announces it. -/
def basedInteger (mark : Char) (base : Nat) : Scan Int := do
  Scan.word ['0', mark]
  let digits ← digitGroup fun char => (Text.readDigits? base [char]).isSome
  let number ← liftM (Text.readDigits? base digits)
  return (number : Int)

def decimalInteger : Scan Int := do
  let (negative, digits) ← wholePart
  let size := (Text.decimalNumber digits : Int)
  return if negative then -size else size

def integer : Scan Int := do
  let number ← basedInteger 'x' 16 <|> basedInteger 'o' 8 <|> basedInteger 'b' 2 <|> decimalInteger
  guard (IntegerKind.signed64.contains number)
  return number

/-! ### Scalars -/

def truth : Scan Bool :=
  (do Scan.word ['t', 'r', 'u', 'e']; return true) <|>
    (do Scan.word ['f', 'a', 'l', 's', 'e']; return false)

/-- Any scalar. A number is tried in its longest form first, since a moment begins like a number and
a number with a fraction like an integer. -/
def scalar : Scan Value :=
  (do return .text (String.ofList (← anyText))) <|>
    (do return .moment (← moment .plain)) <|>
    (do return .real (← decimalReal)) <|>
    (do return .real (← specialReal)) <|>
    (do return .integer (← integer)) <|>
    (do return .boolean (← truth))

end Toml

end ConnectorSettings
