/-
This file writes a floating-point number with the fewest digits that read back as that number.

The reals that round to a number form an interval around it, which includes its two ends exactly
when the significand is even. On the grid of the multiples of a power of ten, the interval holds a
point if and only if it holds one of the number's two neighbours on that grid, so it is enough to
look at those. The coarsest grid with a hit gives the fewest digits, and of two hits the nearer is
taken.

The text is positional whatever the size of the number: zeros fill the places up to the point, and
a whole number has neither point nor fraction.
-/

import ConnectorSettings.Number.Binary64
import ConnectorSettings.Text.Digit

namespace ConnectorSettings

namespace Shortest

/-- `digits * 10 ^ place`. -/
structure Digits where
  digits : Nat
  place : Int
  deriving DecidableEq, Repr

/-- A number and the ends of its interval, over one common denominator. -/
structure Interval where
  low : Nat
  value : Nat
  high : Nat
  denominator : Nat
  closed : Bool

/-- The interval of a positive number. Below a power of two the neighbour is half as far away,
unless the format has no smaller spacing left. -/
def interval (number : Binary64) : Interval :=
  let (value, denominator) := Binary64.scaled (4 * number.significand) (number.exponent - 2)
  let (step, _) := Binary64.scaled 1 (number.exponent - 2)
  let narrow := number.significand = Nat.pow 2 52 ∧ Binary64.leastExponent < number.exponent
  { low := value - (if narrow then step else 2 * step)
    value := value
    high := value + 2 * step
    denominator := denominator
    closed := number.significand % 2 = 0 }

/-- The point of the grid of `10 ^ place` nearest to the number, if it lies in the interval. -/
def onGrid? (range : Interval) (place : Int) : Option Digits :=
  let (scale, grid) :=
    if 0 ≤ place then (1, range.denominator * Nat.pow 10 place.toNat)
    else (Nat.pow 10 (-place).toNat, range.denominator)
  let value := range.value * scale
  let low := range.low * scale
  let high := range.high * scale
  let inside (point : Nat) : Bool :=
    if range.closed then low ≤ point && point ≤ high else low < point && point < high
  let below := value / grid
  let above := below + 1
  let belowFits := inside (below * grid) && below != 0
  let aboveFits := inside (above * grid)
  if belowFits && (!aboveFits || value - below * grid < above * grid - value) then
    some ⟨below, place⟩
  else if aboveFits then some ⟨above, place⟩
  else none

/-- The first hit on ever finer grids. -/
def search (range : Interval) : Nat → Int → Digits
  | 0, place => ⟨range.value, place⟩
  | steps + 1, place =>
    match onGrid? range place with
    | some found => found
    | none => search range steps (place - 1)

/-- The fewest digits of a positive number. The search begins above the number's first digit, where
nothing can be hit, and a hit comes within seventeen digits of it. -/
def digits (number : Binary64) : Digits :=
  let range := interval number
  let top := Binary64.magnitude range.value range.denominator
  search range 24 (top * 30103 / 100000 + 2)

/-- Digits with the point at its place. -/
def positional (found : Digits) : List Char :=
  let text := Text.decimal found.digits
  if 0 ≤ found.place then text ++ List.replicate found.place.toNat '0'
  else
    let fraction := (-found.place).toNat
    let padded := Text.zeroPadded (fraction + 1) text
    let whole := padded.length - fraction
    padded.take whole ++ ['.'] ++ padded.drop whole

def text (number : Binary64) : String :=
  if number.significand = 0 then "0" else String.ofList (positional (digits number))

end Shortest

end ConnectorSettings
