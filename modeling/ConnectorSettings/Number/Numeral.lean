/-
This file says what a written integer denotes, apart from how it is read, and reads one in steps.

The digits of a numeral count by their places, so zeros in front of them count for nothing. Which
numbers a kind has comes from the number of its bits.

Read in steps, a number grows by one digit at a time and has to stay within the range of its kind
after each of them, since nothing wider is at hand to hold it.
-/

import ConnectorSettings.Number.Integer
import Mathlib.Data.Nat.Digits.Defs

namespace ConnectorSettings

namespace IntegerKind

def bits : IntegerKind → Nat
  | .signed32 | .unsigned32 => 32
  | .signed64 | .unsigned64 | .word => 64

/-- The numbers of a kind: half of what its bits can tell apart is below zero if it is signed, and
nothing is if it is not. -/
def InRange (kind : IntegerKind) (number : Int) : Prop :=
  if kind.isSigned then -(2 ^ (kind.bits - 1)) ≤ number ∧ number < 2 ^ (kind.bits - 1)
  else 0 ≤ number ∧ number < 2 ^ kind.bits

/-- What digits denote by their places, of which the last counts for itself. -/
def placeValue (digits : List Char) : Nat :=
  Nat.ofDigits 10 (digits.map fun char => char.toNat - '0'.toNat).reverse

/-- The text is a numeral of the kind: digits, at least one, behind a sign or none. Only a signed
kind has a minus. -/
inductive Numeral (kind : IntegerKind) : List Char → Int → Prop
  | plain {digits : List Char} (filled : digits ≠ [])
      (decimal : ∀ char ∈ digits, Text.isDigit char = true) :
      Numeral kind digits (withSign false (placeValue digits))
  | plus {digits : List Char} (filled : digits ≠ [])
      (decimal : ∀ char ∈ digits, Text.isDigit char = true) :
      Numeral kind ('+' :: digits) (withSign false (placeValue digits))
  | minus {digits : List Char} (signed : kind.isSigned = true) (filled : digits ≠ [])
      (decimal : ∀ char ∈ digits, Text.isDigit char = true) :
      Numeral kind ('-' :: digits) (withSign true (placeValue digits))

/-! ### Reading in steps -/

/-- One more digit behind a number, away from zero. Neither the tenfold nor what the digit makes of
it may leave the range. -/
def appendDigit? (kind : IntegerKind) (negative : Bool) (total : Int) (digit : Nat) : Option Int :=
  let tenfold := total * 10
  let next := if negative then tenfold - digit else tenfold + digit
  if kind.contains tenfold && kind.contains next then some next else none

def appendDigits? (kind : IntegerKind) (negative : Bool) : Int → List Char → Option Int
  | total, [] => some total
  | total, char :: rest => do
    let digit ← Text.decimalValue? char
    let next ← kind.appendDigit? negative total digit
    appendDigits? kind negative next rest

/-- The number of a text, read digit by digit within the range of the kind. -/
def stepwise? (kind : IntegerKind) : List Char → Option Int
  | [] | ['+'] | ['-'] => none
  | '+' :: digits => kind.appendDigits? false 0 digits
  | '-' :: digits => if kind.isSigned then kind.appendDigits? true 0 digits else none
  | digits => kind.appendDigits? false 0 digits

end IntegerKind

end ConnectorSettings
