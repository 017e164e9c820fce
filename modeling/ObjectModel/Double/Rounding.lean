import ObjectModel.Double.Basic

/-! Rounding of an exact quotient of naturals to the nearest double, ties to the even
significand, and the conversions that rest on it. -/
namespace ObjectModel.Double

/-- The natural nearest to `n / d`, a tie going to the even one. -/
def roundHalfEven (n d : Nat) : Nat :=
  let floor := n / d
  let rest := n % d
  if 2 * rest < d then floor
  else if d < 2 * rest then floor + 1
  else if floor % 2 = 0 then floor
  else floor + 1

def scaled (n d : Nat) (power : Int) : Nat × Nat :=
  if 0 ≤ power then (n * twoTo power.toNat, d) else (n, d * twoTo (-power).toNat)

/-- The exponent of the last place of the double nearest to a positive `n / d`: the one that
leaves a 53-bit significand, but never below that of the subnormal numbers. -/
def lastPlace (n d : Nat) : Int :=
  let guess : Int := (n.log2 : Int) - d.log2 - fractionBits
  let (top, bottom) := scaled n d (-guess)
  max (-1074) (if top < twoTo fractionBits * bottom then guess - 1 else guess)

/-- The double nearest to `n / d`. An encoding past the finite ones is infinite, and a carry out
of the significand moves into the exponent field by itself. -/
def ofRatio (minus : Bool) (n d : Nat) : Double :=
  if n = 0 then ofMagnitude minus 0
  else
    let place := lastPlace n d
    let (top, bottom) := scaled n d (-place)
    let magnitude := (place + 1074).toNat * twoTo fractionBits + roundHalfEven top bottom
    if magnitude < largestField * twoTo fractionBits then ofMagnitude minus magnitude
    else infinity minus

def ofInt64 (n : Int64) : Double :=
  ofRatio (decide (n.toInt < 0)) n.toInt.natAbs 1

/-- Widening of a single-precision number, by its interchange encoding. -/
def ofSingleBits (bits : UInt32) : Double :=
  let minus := decide (twoTo 31 ≤ bits.toNat)
  let field := bits.toNat / twoTo 23 % twoTo 8
  let fraction := bits.toNat % twoTo 23
  if field = 255 then (if fraction = 0 then infinity minus else nan)
  else
    let significand := if field = 0 then fraction else twoTo 23 + fraction
    let (top, bottom) := scaled significand 1 ((max 1 field : Nat) - (150 : Int))
    ofRatio minus top bottom

end ObjectModel.Double
