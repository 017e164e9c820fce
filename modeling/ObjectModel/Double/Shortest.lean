import ObjectModel.Double.Basic
import ObjectModel.Numeral

/-! The shortest decimal text that reads back as the same double. The reals that round to a
double form an interval; the text is taken from the coarsest decimal grid with a point in it. -/
namespace ObjectModel.Double

/-- The interval of reals that round to a positive finite double, in quarters of its last
place: `low`, `value` and `high` times `2 ^ exponent`. The ends belong to it iff the significand
is even. Below a power of two the doubles lie twice as close. -/
structure Interval where
  low : Nat
  value : Nat
  high : Nat
  exponent : Int
  closed : Bool
  deriving DecidableEq, Repr

def interval (x : Double) : Interval :=
  let m := x.significand
  { low := if m = twoTo fractionBits ∧ 1 < x.field then 4 * m - 1 else 4 * m - 2
    value := 4 * m
    high := 4 * m + 2
    exponent := x.exponent - 2
    closed := m % 2 == 0 }

def Interval.below (i : Interval) (a b : Nat) : Bool := if i.closed then a ≤ b else a < b

/-- The unit of the interval and the step of the grid of multiples of `10 ^ power`, as two
naturals in a common scale. -/
def Interval.scales (i : Interval) (power : Int) : Nat × Nat :=
  (tenTo (-power).toNat * twoTo i.exponent.toNat, tenTo power.toNat * twoTo (-i.exponent).toNat)

/-- The multiple of `10 ^ power` in the interval that is nearest to its value, if one of the two
neighbours on that grid is in it; a tie goes up. -/
def Interval.gridPoint? (i : Interval) (power : Int) : Option Nat :=
  let (unit, step) := i.scales power
  let floor := i.value * unit / step
  let down := i.below (i.low * unit) (floor * step)
  let up := i.below ((floor + 1) * step) (i.high * unit)
  let rest := i.value * unit % step
  if down && up then some (if step ≤ 2 * rest then floor + 1 else floor)
  else if down then some floor
  else if up then some (floor + 1)
  else none

/-- Goes from one decimal grid to the next finer one, `count` times at most. -/
def Interval.search (i : Interval) : Nat → Int → Nat × Int
  | 0, power => (0, power)
  | count + 1, power =>
    match i.gridPoint? power with
    | some digits => (digits, power)
    | none => i.search count (power - 1)

/-- The digits and the power of ten of the shortest decimal of a positive finite double. Every
double lies below `10 ^ 309`, and the grid of `10 ^ -324` has a point in every interval. -/
def shortest (x : Double) : Nat × Int := x.interval.search 634 309

/-- Positional notation of `digits * 10 ^ power`: no exponent, and a point only before a
fraction. -/
def positional (digits : Nat) (power : Int) : String :=
  let text := Nat.toDigits 10 digits
  if 0 ≤ power then String.ofList (text ++ List.replicate power.toNat '0')
  else
    let places := (-power).toNat
    let padded := List.replicate (places + 1 - text.length) '0' ++ text
    let whole := padded.length - places
    String.ofList (padded.take whole ++ '.' :: padded.drop whole)

def magnitudeText (x : Double) : String :=
  if x.isZero then "0"
  else
    let (digits, power) := x.shortest
    positional digits power

/-- The text of a double. The sign of zero is written, that of a NaN is not. -/
def text (x : Double) : String :=
  if x.isNaN then "NaN"
  else if x.isInfinite then (if x.negative then "-Inf" else "+Inf")
  else if x.negative then "-" ++ x.magnitudeText
  else x.magnitudeText

end ObjectModel.Double
