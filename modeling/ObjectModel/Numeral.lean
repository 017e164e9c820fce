/-! Numerals in a radix up to sixteen: reading digit strings as exact naturals and
signed integers, the range check to 64 bits, and writing them back in decimal. -/
namespace ObjectModel.Numeral

/-- The value of a digit character below the radix. Letters count from ten, in either case. -/
def digit? (radix : Nat) (c : Char) : Option Nat :=
  let value :=
    if '0' ≤ c ∧ c ≤ '9' then c.toNat - '0'.toNat
    else if 'a' ≤ c ∧ c ≤ 'f' then c.toNat - 'a'.toNat + 10
    else if 'A' ≤ c ∧ c ≤ 'F' then c.toNat - 'A'.toNat + 10
    else radix
  if value < radix then some value else none

/-- Reads every character as a digit, most significant first, after a value already read. -/
def digits? (radix : Nat) : Nat → List Char → Option Nat
  | value, [] => some value
  | value, c :: rest =>
    match digit? radix c with
    | some d => digits? radix (radix * value + d) rest
    | none => none

def natural? (radix : Nat) : List Char → Option Nat
  | [] => none
  | c :: rest => digits? radix 0 (c :: rest)

/-- Splits one leading sign off; `true` stands for minus. -/
def splitSign : List Char → Bool × List Char
  | '-' :: rest => (true, rest)
  | '+' :: rest => (false, rest)
  | text => (false, text)

def signed? (radix : Nat) (text : List Char) : Option Int :=
  let (minus, rest) := splitSign text
  (natural? radix rest).map fun n => if minus then -(n : Int) else n

/-- The 64-bit integer equal to `n`, if `n` is in range. -/
def toInt64? (n : Int) : Option Int64 :=
  if Int64.minValue.toInt ≤ n ∧ n ≤ Int64.maxValue.toInt then some (Int64.ofInt n) else none

/-- What follows a hexadecimal mark, if the text starts with one. -/
def afterHexMark? : List Char → Option (List Char)
  | '0' :: 'x' :: rest => some rest
  | '0' :: 'X' :: rest => some rest
  | _ => none

/-- A 64-bit integer in decimal or, after a hexadecimal mark, in hexadecimal. The sign of a
hexadecimal numeral stands behind its mark. -/
def int64? (text : String) : Option Int64 :=
  match (signed? 10 text.toList).bind toInt64? with
  | some n => some n
  | none => ((afterHexMark? text.toList).bind (signed? 16)).bind toInt64?

def decimalDigits (n : Nat) : String := String.ofList (Nat.toDigits 10 n)

def decimal (n : Int) : String :=
  if n < 0 then "-" ++ decimalDigits n.natAbs else decimalDigits n.natAbs

/-- Lower-case hexadecimal digits of the code of a character and the like. -/
def hexDigits (n : Nat) : String := String.ofList (Nat.toDigits 16 n)

/-- Why a text is no unsigned 64-bit numeral. -/
inductive Fault where
  | empty
  | invalidDigit
  | tooLarge
  deriving DecidableEq, Repr

def Fault.message : Fault → String
  | .empty => "cannot parse integer from empty string"
  | .invalidDigit => "invalid digit found in string"
  | .tooLarge => "number too large to fit in target type"

/-- Reads digits until one is invalid or the value leaves 64 bits, whichever comes first. -/
def unsigned64 : Nat → List Char → Except Fault UInt64
  | value, [] => .ok (UInt64.ofNat value)
  | value, c :: rest =>
    match digit? 10 c with
    | none => .error .invalidDigit
    | some d =>
      if 10 * value + d < UInt64.size then unsigned64 (10 * value + d) rest else .error .tooLarge

/-- An unsigned 64-bit decimal numeral, with an optional plus sign. -/
def uint64 (text : String) : Except Fault UInt64 :=
  match text.toList with
  | [] => .error .empty
  | ['+'] => .error .invalidDigit
  | '+' :: rest => unsigned64 0 rest
  | rest => unsigned64 0 rest

end ObjectModel.Numeral
