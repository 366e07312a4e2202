import Pseudocode.Number.Binary

/-!
# The shortest decimal of a float

Every float is the nearest one to a whole interval of real numbers. Its
shortest decimal is the decimal with the fewest digits in that interval, and of
several such decimals the one nearest to the float.

The interval of `m * 2 ^ q` reaches half way to the two neighbouring floats. The
lower neighbour of a power of two is only half as far away as the upper one. The
ends belong to the interval when `m` is even, since a tie between two floats
goes to the even mantissa. All bounds are kept in quarters of the last binary
place, so that they are whole numbers.

The search goes through the grids of the multiples of `10 ^ k`, from coarse to
fine. If a point of a grid lies in the interval, then so does one of the two
points of that grid next to the float, hence only these two are tried.
-/

set_option autoImplicit false

namespace Pseudocode

/-- The number `digits * 10 ^ exponent`. -/
structure Decimal where
  digits : Nat
  exponent : Int
deriving DecidableEq

namespace Shortest

/-- The numbers that round to a float, in units of `2 ^ exponent`. -/
structure Interval where
  low : Nat
  middle : Nat
  high : Nat
  exponent : Int
  /-- Whether the two ends round to the float as well. -/
  closed : Bool

/-- The numbers that round to `mantissa * 2 ^ exponent`. -/
def Interval.around (mantissa : Nat) (exponent : Int) : Interval where
  low := 4 * mantissa - (if mantissa = Nat.pow 2 52 ∧ exponent ≠ -1074 then 1 else 2)
  middle := 4 * mantissa
  high := 4 * mantissa + 2
  exponent := exponent - 2
  closed := mantissa % 2 == 0

/-- The factors that bring a number in units of `2 ^ exponent`, and a multiple
of `10 ^ place`, to one common unit. -/
def scales (exponent place : Int) : Nat × Nat :=
  (Nat.pow 2 exponent.toNat * Nat.pow 10 (-place).toNat,
    Nat.pow 2 (-exponent).toNat * Nat.pow 10 place.toNat)

/-- The multiple of `10 ^ place` nearest to the middle among its two neighbours
that lie in the interval. A tie goes to the larger one. -/
def Interval.hit? (interval : Interval) (place : Int) : Option Nat :=
  let (unit, step) := scales interval.exponent place
  let low := interval.low * unit
  let middle := interval.middle * unit
  let high := interval.high * unit
  let below := middle / step
  let above := below + 1
  let reaches := low < below * step || (interval.closed && low == below * step)
  let stays := above * step < high || (interval.closed && above * step == high)
  if reaches && stays then
    some (if middle - below * step < above * step - middle then below else above)
  else if reaches then some below
  else if stays then some above
  else none

/-- Tries the grids from `10 ^ place` on toward finer ones. -/
def search (interval : Interval) : Nat → Int → Decimal
  | 0, place =>
    let (unit, step) := scales interval.exponent place
    ⟨interval.middle * unit / step, place⟩
  | grids + 1, place =>
    match interval.hit? place with
    | some digits => ⟨digits, place⟩
    | none => search interval grids (place - 1)

/-- A place above the leading digit of `mantissa * 2 ^ exponent`, since
`0.30103` is the logarithm of two to five places. -/
def firstPlace (mantissa : Nat) (exponent : Int) : Int :=
  (mantissa.log2 + exponent + 1) * 30103 / 100000 + 1

/-- The shortest decimal that rounds to `mantissa * 2 ^ exponent`. Seventeen
digits tell any two floats apart, so twenty grids are enough. -/
def decimal (mantissa : Nat) (exponent : Int) : Decimal :=
  search (.around mantissa exponent) 20 (firstPlace mantissa exponent)

end Shortest

end Pseudocode
