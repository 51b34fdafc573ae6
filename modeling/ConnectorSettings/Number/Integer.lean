/-
This file holds the kinds of bounded integers a setting can be read as, and the grammar they
share.

A written integer is an optional sign and at least one digit; a minus belongs to the signed kinds
alone, so that even a negative zero is no unsigned number. Leading zeros are allowed in any number,
and a number outside the range of its kind is refused rather than wrapped.
-/

import ConnectorSettings.Text.Digit

namespace ConnectorSettings

inductive IntegerKind where
  | signed32
  | signed64
  | unsigned32
  | unsigned64
  /-- A machine word, of sixty-four bits. -/
  | word
  deriving DecidableEq, Repr

namespace IntegerKind

def isSigned : IntegerKind → Bool
  | .signed32 | .signed64 => true
  | .unsigned32 | .unsigned64 | .word => false

def least : IntegerKind → Int
  | .signed32 => -2147483648
  | .signed64 => -9223372036854775808
  | .unsigned32 | .unsigned64 | .word => 0

def greatest : IntegerKind → Int
  | .signed32 => 2147483647
  | .signed64 => 9223372036854775807
  | .unsigned32 => 4294967295
  | .unsigned64 | .word => 18446744073709551615

def contains (kind : IntegerKind) (number : Int) : Bool :=
  kind.least ≤ number && number ≤ kind.greatest

/-! ### The grammar -/

/-- At least one digit and nothing else. -/
def magnitude? (digits : List Char) : Option Nat :=
  if !digits.isEmpty && digits.all Text.isDigit then some (Text.decimalNumber digits) else none

def withSign (negative : Bool) (size : Nat) : Int :=
  if negative then -(size : Int) else size

/-- The integer that a text denotes, before any bound is put on it. -/
def denoted? (kind : IntegerKind) : List Char → Option Int
  | '+' :: digits => (magnitude? digits).map (withSign false)
  | '-' :: digits => if kind.isSigned then (magnitude? digits).map (withSign true) else none
  | digits => (magnitude? digits).map (withSign false)

end IntegerKind

/-- An integer within the range of its kind. -/
structure BoundedInt (kind : IntegerKind) where
  value : Int
  inRange : kind.contains value = true
  deriving DecidableEq

namespace BoundedInt

def ofInt? (kind : IntegerKind) (number : Int) : Option (BoundedInt kind) :=
  if inRange : kind.contains number = true then some ⟨number, inRange⟩ else none

def read? (kind : IntegerKind) (text : String) : Option (BoundedInt kind) :=
  (kind.denoted? text.toList).bind (ofInt? kind)

def toText {kind : IntegerKind} (number : BoundedInt kind) : String :=
  Text.integerText number.value

end BoundedInt

end ConnectorSettings
