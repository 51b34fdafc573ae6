/-
This file says which number of the format a fraction is rounded to, apart from how that number is
found.

A number of the format has one form: its significand has all the bits that there are, unless the
exponent is the least. A fraction is rounded to a number that no other is nearer to, and where two
are as near, to the one whose significand is even. The bounds of the format stand here once more, so
that a mistake in those that numbers are computed with would show.
-/

import ConnectorSettings.Number.Binary64
import Mathlib.Algebra.Order.Field.Rat
import Mathlib.Algebra.Order.Group.Abs

namespace ConnectorSettings

namespace Binary64

def value (number : Binary64) : ℚ :=
  number.significand * 2 ^ number.exponent

/-- The number is one of the format, in its one form. -/
structure IsNormal (number : Binary64) : Prop where
  short : number.significand < 2 ^ 53
  least : -1074 ≤ number.exponent
  greatest : number.exponent ≤ 971
  filled : 2 ^ 52 ≤ number.significand ∨ number.exponent = -1074

/-- The number is the one that the fraction is rounded to. -/
structure IsNearest (exact : ℚ) (number : Binary64) : Prop where
  isNormal : number.IsNormal
  nearest : ∀ other : Binary64, other.IsNormal →
    |exact - number.value| ≤ |exact - other.value|
  even : ∀ other : Binary64, other.IsNormal → other ≠ number →
    |exact - other.value| = |exact - number.value| → number.significand % 2 = 0
  /-- The fraction is less than half a step above the largest number. -/
  bounded : exact < (2 ^ 53 - 1 / 2) * 2 ^ (971 : Int)

end Binary64

end ConnectorSettings
