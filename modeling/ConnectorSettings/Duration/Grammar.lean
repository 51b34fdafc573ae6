/-
This file holds the grammar of a written duration, apart from how one is read, and what the amount
and the unit of a duration come to.

The units stand here once more, each with its symbol and its length, since a mistake in the table
that durations are read by would otherwise be a mistake in their grammar too. Digits count by their
places.

Which characters are digits is left open. Every script has digits of its own, and a scan may let
them pass; a number is read of ASCII digits alone.
-/

import ConnectorSettings.Duration
import ConnectorSettings.Number.Numeral
import ConnectorSettings.Number.Rounding

namespace ConnectorSettings

namespace Duration

/-! ### Units -/

/-- The symbol of a unit and its length in seconds. -/
inductive IsUnit : Unit → String → ℚ → Prop
  | nanosecond : IsUnit .nanosecond "ns" (1 / 1000000000)
  | microsecond : IsUnit .microsecond "us" (1 / 1000000)
  | millisecond : IsUnit .millisecond "ms" (1 / 1000)
  | second : IsUnit .second "s" 1
  | minute : IsUnit .minute "m" 60
  | hour : IsUnit .hour "h" 3600
  | day : IsUnit .day "d" 86400

/-! ### Spelling -/

/-- The text is digits, a point and digits behind it or neither, blanks and a unit, and these are
its parts. -/
inductive Spells (isDigit : Char → Bool) : List Char → Parts → Prop
  | whole {whole blanks : List Char} {unit : Unit} {symbol : String} {length : ℚ}
      (filled : whole ≠ []) (digits : ∀ char ∈ whole, isDigit char = true)
      (blank : ∀ char ∈ blanks, Text.isBlank char = true) (isUnit : IsUnit unit symbol length) :
      Spells isDigit (whole ++ (blanks ++ symbol.toList)) ⟨whole, [], unit⟩
  | fraction {whole fraction blanks : List Char} {unit : Unit} {symbol : String}
      {length : ℚ} (filled : whole ≠ []) (digits : ∀ char ∈ whole, isDigit char = true)
      (fractionFilled : fraction ≠ []) (fractionDigits : ∀ char ∈ fraction, isDigit char = true)
      (blank : ∀ char ∈ blanks, Text.isBlank char = true) (isUnit : IsUnit unit symbol length) :
      Spells isDigit (whole ++ '.' :: (fraction ++ (blanks ++ symbol.toList)))
        ⟨whole, fraction, unit⟩

/-- No other character that a duration is spelled with is one of these digits. -/
structure Apart (isDigit : Char → Bool) : Prop where
  point : isDigit '.' = false
  blank : ∀ char, Text.isBlank char = true → isDigit char = false
  letter : ∀ {unit : Unit} {symbol : String} {length : ℚ}, IsUnit unit symbol length →
    ∀ char ∈ symbol.toList, isDigit char = false

/-- What no written duration has. A sign, the letter of an exponent and a digit of another script
are foreign to it. -/
inductive Flawed (text : List Char) : Prop
  | foreign (char : Char) (member : char ∈ text) (digit : Text.isDigit char = false)
      (point : char ≠ '.') (blank : Text.isBlank char = false)
      (letter : ∀ {unit : Unit} {symbol : String} {length : ℚ},
        IsUnit unit symbol length → char ∉ symbol.toList)
  | withoutWhole (missing : ∀ char ∈ text.head?, Text.isDigit char = false)
  | withoutFraction (before after : List Char) (split : text = before ++ '.' :: after)
      (missing : ∀ char ∈ after.head?, Text.isDigit char = false)
  | blankEnd (char : Char) (last : text.getLast? = some char) (blank : Text.isBlank char = true)

/-! ### What is spelled -/

/-- The digits in front of the point and behind it. -/
def Parts.digits (parts : Parts) : List Char :=
  parts.whole ++ parts.fraction

/-- The number is the amount times the unit: both are rounded, and so is what they come to. -/
def Parts.IsProduct (parts : Parts) (product : Binary64) : Prop :=
  ∃ symbol length amount unit, IsUnit parts.unit symbol length ∧
    Binary64.IsNearest (IntegerKind.placeValue parts.digits / 10 ^ parts.fraction.length) amount ∧
    Binary64.IsNearest length unit ∧
    Binary64.IsNearest (amount.value * unit.value) product

/-- So many seconds fit into a duration. -/
def Fits (product : Binary64) : Prop :=
  product.value < 2 ^ 64

/-- The text spells an amount of a unit, and their product fits into a duration. -/
structure Reads (text : String) (parts : Parts) (product : Binary64) : Prop where
  spelled : Spells Text.isDigit text.toList parts
  isProduct : parts.IsProduct product
  fits : Fits product

end Duration

/-! ### Digits of other scripts -/

/-- Reads a duration by a scan that may let more digits pass than those of ASCII. A number is made
of ASCII digits alone, so the others are refused behind the scan. -/
def DurationText.readWide? (wide : Char → Bool) (text : String) : Option DurationText := do
  let parts ← Duration.parts? wide text.toList
  let duration ← if parts.digits.all Text.isDigit then parts.denoted? else none
  return ⟨text, duration⟩

end ConnectorSettings
