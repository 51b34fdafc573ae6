/-
This file reads lengths of time, such as `200s`, `1500ms` or `1.5 h`.

The text of a duration is kept as it was written, since connectors hand it on to their own
libraries; what it denotes is worked out beside it. The amount is read as a floating-point number
and multiplied by the unit's length in seconds, another floating-point number, and the product,
taken exactly, is rounded to whole nanoseconds. All three steps round to nearest with ties to
even. A product of 2 ^ 64 seconds or more is no duration.
-/

import ConnectorSettings.Number.Binary64
import ConnectorSettings.Readable
import ConnectorSettings.Text.Described

namespace ConnectorSettings

/-- A length of time in whole seconds and the nanoseconds beyond them. -/
structure Duration where
  seconds : Nat
  nanoseconds : Nat
  deriving DecidableEq, Repr

namespace Duration

inductive Unit where
  | nanosecond
  | microsecond
  | millisecond
  | second
  | minute
  | hour
  | day
  deriving DecidableEq, Repr

namespace Unit

def symbol : Unit → String
  | nanosecond => "ns"
  | microsecond => "us"
  | millisecond => "ms"
  | second => "s"
  | minute => "m"
  | hour => "h"
  | day => "d"

def all : List Unit :=
  [nanosecond, microsecond, millisecond, second, minute, hour, day]

/-- The unit in seconds, as a fraction. -/
def length : Unit → Nat × Nat
  | nanosecond => (1, 1000000000)
  | microsecond => (1, 1000000)
  | millisecond => (1, 1000)
  | second => (1, 1)
  | minute => (60, 1)
  | hour => (3600, 1)
  | day => (86400, 1)

def ofSymbol? (text : List Char) : Option Unit :=
  all.find? fun unit => unit.symbol.toList == text

end Unit

/-! ### The grammar -/

/-- A written duration: the digits before the point, those after it, and the unit. Without a point
the second list is empty. -/
structure Parts where
  whole : List Char
  fraction : List Char
  unit : Unit

/-- The digits after a point, where there is one, and what follows them; a point without digits is
refused. -/
def splitFraction? (isDigit : Char → Bool) : List Char → Option (List Char × List Char)
  | '.' :: text =>
    let fraction := text.takeWhile isDigit
    if fraction.isEmpty then none else some (fraction, text.dropWhile isDigit)
  | text => some ([], text)

/-- Digits, a point and digits if it has a fraction, blanks, and a unit that ends the text. What
counts as a digit is given. -/
def parts? (isDigit : Char → Bool) (text : List Char) : Option Parts :=
  let whole := text.takeWhile isDigit
  if whole.isEmpty then none
  else do
    let (fraction, rest) ← splitFraction? isDigit (text.dropWhile isDigit)
    let unit ← Unit.ofSymbol? (Text.trimStart rest)
    return ⟨whole, fraction, unit⟩

/-! ### What a written duration denotes -/

/-- A product in seconds, to whole nanoseconds. -/
def ofSeconds? (product : Binary64) : Option Duration :=
  let (numerator, denominator) := product.ratio
  if numerator < Nat.pow 2 64 * denominator then
    let total := divideRounding (numerator * 1000000000) denominator
    some ⟨total / 1000000000, total % 1000000000⟩
  else none

def Parts.denoted? (parts : Parts) : Option Duration := do
  let amount ← Binary64.ofRatio? (Text.decimalNumber (parts.whole ++ parts.fraction))
    (Nat.pow 10 parts.fraction.length)
  let (numerator, denominator) := parts.unit.length
  let unit ← Binary64.ofRatio? numerator denominator
  let product ← amount.mul? unit
  ofSeconds? product

/-! ### Showing a duration -/

/-- A whole number with the fraction `part / scale` behind it, without trailing zeros. -/
def fractional (whole part scale : Nat) : List Char :=
  if part = 0 then Text.decimal whole
  else
    let digits := Text.zeroPadded ((Text.decimal scale).length - 1) (Text.decimal part)
    Text.decimal whole ++ ['.'] ++ (digits.reverse.dropWhile (· == '0')).reverse

/-- The duration in the largest of the units s, ms, µs and ns that it reaches. -/
def display (duration : Duration) : String :=
  let (number, unit) :=
    if 0 < duration.seconds then
      (fractional duration.seconds duration.nanoseconds 1000000000, "s")
    else if 1000000 ≤ duration.nanoseconds then
      (fractional (duration.nanoseconds / 1000000) (duration.nanoseconds % 1000000) 1000000, "ms")
    else if 1000 ≤ duration.nanoseconds then
      (fractional (duration.nanoseconds / 1000) (duration.nanoseconds % 1000) 1000, "µs")
    else (Text.decimal duration.nanoseconds, "ns")
  String.ofList number ++ unit

end Duration

/-- A duration as it was written, with the length it denotes. -/
structure DurationText where
  text : String
  duration : Duration
  deriving DecidableEq, Repr

namespace DurationText

def read? (text : String) : Option DurationText := do
  let parts ← Duration.parts? Text.isDigit text.toList
  let duration ← parts.denoted?
  return ⟨text, duration⟩

/-- The written text in quotes and the length it denotes. -/
def describe (written : DurationText) : String :=
  Text.quoted written.text ++ " (" ++ written.duration.display ++ ")"

instance : Readable DurationText where
  expected := "duration (e.g. 200s, 1500ms, 2m)"
  read? := read?

end DurationText

end ConnectorSettings
