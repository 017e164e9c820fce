import ObjectModel.Double.Rounding
import ObjectModel.Numeral

/-! Reading decimal text as the nearest double. The grammar is an optional sign, digits with an
optional point among them, and an optional exponent; or the name of an infinity or of a NaN. -/
namespace ObjectModel.Double

/-- An unsigned decimal number: `digits * 10 ^ exponent`. -/
structure Decimal where
  digits : Nat
  exponent : Int
  deriving DecidableEq, Repr

def spanDigits (text : List Char) : List Char × List Char :=
  (text.takeWhile Char.isDigit, text.dropWhile Char.isDigit)

/-- The digits of an exponent, behind a part already read. Once that part has reached 65536,
which takes the number out of range unless its digits are as many, further digits leave it as
it is. -/
def exponentDigits? : Nat → List Char → Option Nat
  | value, [] => some value
  | value, c :: rest =>
    match Numeral.digit? 10 c with
    | some d => exponentDigits? (if value < 65536 then 10 * value + d else value) rest
    | none => none

/-- The exponent part behind a significand: nothing, or a mark, an optional sign and one or
more digits. -/
def exponentPart? : List Char → Option Int
  | [] => some 0
  | c :: rest =>
    if c = 'e' ∨ c = 'E' then
      match Numeral.splitSign rest with
      | (_, []) => none
      | (minus, digits) =>
        (exponentDigits? 0 digits).map fun n => if minus then -(n : Int) else n
    else none

/-- The significand: digits with an optional point, at least one digit in all. What is left
follows it. -/
def Decimal.read? (text : List Char) : Option Decimal :=
  let (whole, rest) := spanDigits text
  let (part, rest) :=
    match rest with
    | '.' :: rest => spanDigits rest
    | rest => ([], rest)
  match Numeral.natural? 10 (whole ++ part), exponentPart? rest with
  | some digits, some exponent => some ⟨digits, exponent - part.length⟩
  | _, _ => none

/-- The nearest double. Past `10 ^ 310` all numbers are infinite, and those below `2 ^ -1100`
are zero; a number in between has a power of ten no larger than its digits ask for. -/
def Decimal.toDouble (minus : Bool) (d : Decimal) : Double :=
  if d.digits = 0 then ofMagnitude minus 0
  else if 310 < d.exponent then infinity minus
  else if (d.digits.log2 : Int) + 3 * d.exponent < -1100 then ofMagnitude minus 0
  else if 0 ≤ d.exponent then ofRatio minus (d.digits * tenTo d.exponent.toNat) 1
  else ofRatio minus d.digits (tenTo (-d.exponent).toNat)

/-- Names of the numbers that are not finite, in any case. -/
def special? (minus : Bool) (text : List Char) : Option Double :=
  let name := String.ofList (text.map Char.toLower)
  if name = "inf" ∨ name = "infinity" then some (infinity minus)
  else if name = "nan" then some nan
  else none

def read? (text : String) : Option Double :=
  let (minus, rest) := Numeral.splitSign text.toList
  match Decimal.read? rest with
  | some d => some (d.toDouble minus)
  | none => special? minus rest

end ObjectModel.Double
