/-
This file holds the finite non-negative binary floating-point numbers of sixty-four bits, exactly.

A number is kept as `significand * 2 ^ exponent` with no bits lost, so every operation is the
exact one on fractions followed by one rounding. `ofRatio?` is that rounding: to the nearest number
of the format, a tie going to the even significand, and to nothing at all where the result would
lie beyond the largest number. Keeping the fraction in whole numbers means that what the format
does can be computed and reasoned about; the processor's own arithmetic is opaque to proofs.
-/

namespace ConnectorSettings

/-- The quotient to the nearest whole number; a tie goes to the even one. -/
def divideRounding (numerator denominator : Nat) : Nat :=
  let quotient := numerator / denominator
  let twice := 2 * (numerator % denominator)
  if twice < denominator then quotient
  else if denominator < twice then quotient + 1
  else quotient + quotient % 2

structure Binary64 where
  significand : Nat
  exponent : Int
  deriving DecidableEq, Repr

namespace Binary64

/-- The exponent of the least bit that any number of the format has. -/
def leastExponent : Int := -1074

def zero : Binary64 := ⟨0, leastExponent⟩

/-- A fraction as the pair of two whole numbers. -/
def scaled (significand : Nat) (exponent : Int) : Nat × Nat :=
  if 0 ≤ exponent then (significand * Nat.pow 2 exponent.toNat, 1)
  else (significand, Nat.pow 2 (-exponent).toNat)

def ratio (number : Binary64) : Nat × Nat :=
  scaled number.significand number.exponent

/-- The exponent of the highest bit of a positive fraction. -/
def magnitude (numerator denominator : Nat) : Int :=
  let estimate : Int := (Nat.log2 numerator : Int) - (Nat.log2 denominator : Int)
  let (power, unit) := scaled 1 estimate
  if numerator * unit < denominator * power then estimate - 1 else estimate

/-- The number of a significand and an exponent after a rounding. One that carried the significand
to `2 ^ 53` made it a bit too long; half of it with the next exponent is the same number. -/
def carried (significand : Nat) (exponent : Int) : Binary64 :=
  if significand = Nat.pow 2 53 then ⟨Nat.pow 2 52, exponent + 1⟩ else ⟨significand, exponent⟩

/-- The largest exponent of a number whose significand has all its bits. -/
def largestExponent : Int := 971

/-- The number of the format nearest to a fraction; `none` where rounding passes the largest. -/
def ofRatio? (numerator denominator : Nat) : Option Binary64 :=
  if numerator = 0 then some zero
  else
    let exponent := max (magnitude numerator denominator - 52) leastExponent
    let (power, unit) := scaled 1 exponent
    let rounded := carried (divideRounding (numerator * unit) (denominator * power)) exponent
    if largestExponent < rounded.exponent then none else some rounded

def mul? (left right : Binary64) : Option Binary64 :=
  let (numerator, denominator) :=
    scaled (left.significand * right.significand) (left.exponent + right.exponent)
  ofRatio? numerator denominator

end Binary64

end ConnectorSettings
