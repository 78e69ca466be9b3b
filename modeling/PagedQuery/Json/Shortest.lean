import PagedQuery.Json.Double

/-!
# The shortest decimal that reads back

A positive double is the nearest double to every real number of an interval
around it; the ends belong to the interval when the significand is even. For
one digit, two digits and so on, the double has two neighbours on the grid of
decimals with that many digits. The first grid with a neighbour in the
interval wins, and of two neighbours in it the nearer, from half way the even
one. All comparisons are between whole numbers.
-/
namespace PagedQuery

/-- The number `coefficient * 10 ^ exponent`. -/
structure Decimal where
  coefficient : Nat
  exponent : Int
  deriving DecidableEq, Repr, Inhabited

namespace Double

/-- The interval of a double in quarters of its last place, as a multiple of
`unit.1 / unit.2`, with the number itself in the middle. -/
structure Interval where
  low : Nat
  middle : Nat
  high : Nat
  closed : Bool
  unit : Nat × Nat

/-- The real numbers whose nearest double is the magnitude of `x`. -/
def interval (x : Double) : Interval :=
  let quarter := x.scale - 2
  { low := 4 * x.significand - (if x.isLowerGapHalved then 1 else 2)
    middle := 4 * x.significand
    high := 4 * x.significand + 2
    closed := x.significand % 2 = 0
    unit := if 0 ≤ quarter then (Nat.pow 2 quarter.toNat, 1) else (1, Nat.pow 2 (-quarter).toNat) }

namespace Interval

/-- The interval and the grid of multiples of `10 ^ exponent` on one scale:
`c * 10 ^ exponent` is the same point as `k` quarters when `c * grid = k * quarter`. -/
def scales (i : Interval) (exponent : Int) : Nat × Nat :=
  if 0 ≤ exponent then (i.unit.2 * Nat.pow 10 exponent.toNat, i.unit.1)
  else (i.unit.2, i.unit.1 * Nat.pow 10 (-exponent).toNat)

/-- The point lies in the interval; both are on the scale of `quarter`. -/
def contains (i : Interval) (quarter point : Nat) : Bool :=
  if i.closed then i.low * quarter ≤ point && point ≤ i.high * quarter
  else i.low * quarter < point && point < i.high * quarter

/-- The better of the two neighbours on the grid of multiples of `10 ^ exponent`,
if one of them lies in the interval. -/
def neighbour? (i : Interval) (exponent : Int) : Option Decimal :=
  let (grid, quarter) := i.scales exponent
  let below := i.middle * quarter / grid
  let above := below + 1
  let lowFits := i.contains quarter (below * grid)
  let highFits := i.contains quarter (above * grid)
  let twice := 2 * (i.middle * quarter)
  let halfWay := (2 * below + 1) * grid
  if lowFits && highFits then
    if twice < halfWay ∨ twice = halfWay ∧ below % 2 = 0 then some ⟨below, exponent⟩
    else some ⟨above, exponent⟩
  else if lowFits then some ⟨below, exponent⟩
  else if highFits then some ⟨above, exponent⟩
  else none

/-- The power of ten just above the middle of the interval. -/
def magnitude (i : Interval) : Int :=
  let value := i.middle * i.unit.1
  if i.unit.2 ≤ value then (Text.ofNat (value / i.unit.2)).length
  else 1 - ((Text.ofNat (i.unit.2 / value)).length : Int)

end Interval

/-- The most digits that a double needs. -/
def maxDigits : Nat := 17

/-- The shortest decimal whose nearest double is the magnitude of `x`; for zero it is zero. -/
def shortest (x : Double) : Decimal :=
  if x.significand = 0 then ⟨0, 0⟩
  else
    let i := x.interval
    ((List.range maxDigits).findSome? fun n : Nat => i.neighbour? (i.magnitude - ((n + 1 : Nat) : Int))).getD ⟨0, 0⟩

end Double

end PagedQuery
