/-! Double-precision numbers as their sixty-four bits, decoded into a sign, a significand
and a power of two. All arithmetic on them is exact arithmetic on naturals. -/
namespace ObjectModel

def twoTo (n : Nat) : Nat := Nat.pow 2 n

def tenTo (n : Nat) : Nat := Nat.pow 10 n

structure Double where
  bits : UInt64
  deriving DecidableEq, Repr, Inhabited

namespace Double

def fractionBits : Nat := 52
def largestField : Nat := 2047

def negative (x : Double) : Bool := decide (twoTo 63 ≤ x.bits.toNat)
def field (x : Double) : Nat := x.bits.toNat / twoTo fractionBits % twoTo 11
def fraction (x : Double) : Nat := x.bits.toNat % twoTo fractionBits

def isNaN (x : Double) : Bool := x.field == largestField && x.fraction != 0
def isInfinite (x : Double) : Bool := x.field == largestField && x.fraction == 0
def isZero (x : Double) : Bool := x.field == 0 && x.fraction == 0

/-- A finite number is `significand * 2 ^ exponent`, up to its sign. Numbers of field zero are
subnormal and have no leading bit. -/
def significand (x : Double) : Nat :=
  if x.field = 0 then x.fraction else twoTo fractionBits + x.fraction
def exponent (x : Double) : Int := (max 1 x.field : Nat) - (1075 : Int)

def ofMagnitude (minus : Bool) (magnitude : Nat) : Double :=
  ⟨UInt64.ofNat (if minus then twoTo 63 + magnitude else magnitude)⟩

def zero : Double := ofMagnitude false 0
def one : Double := ofMagnitude false (1023 * twoTo fractionBits)
def infinity (minus : Bool) : Double := ofMagnitude minus (largestField * twoTo fractionBits)
def nan : Double := ofMagnitude false (largestField * twoTo fractionBits + twoTo 51)

/-- The integer part, toward zero, of a finite number without its sign. -/
def wholePart (x : Double) : Nat :=
  if 0 ≤ x.exponent then x.significand * twoTo x.exponent.toNat
  else x.significand / twoTo (-x.exponent).toNat

/-- Truncation toward zero that stops at the ends of the 64-bit range; a NaN gives zero. -/
def toInt64 (x : Double) : Int64 :=
  if x.isNaN then 0
  else if x.negative then
    Int64.ofInt (-(min (x.wholePart) (twoTo 63) : Nat))
  else
    Int64.ofInt (min (x.wholePart) (twoTo 63 - 1) : Nat)

end Double
end ObjectModel
