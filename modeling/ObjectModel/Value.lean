import ObjectModel.Arena
import ObjectModel.Double.Rounding

/-! The values that variables hold and calls pass: nothing, booleans, 64-bit integers, doubles,
texts, and references to instances. -/
namespace ObjectModel

inductive Value where
  | nothing
  | boolean (b : Bool)
  | integer (n : Int64)
  | double (x : Double)
  | string (text : String)
  | object (o : Object)
  deriving DecidableEq, Repr, Inhabited

namespace Value

def isNothing : Value → Bool
  | .nothing => true
  | _ => false

def isBoolean : Value → Bool
  | .boolean _ => true
  | _ => false

def isNumeric : Value → Bool
  | .integer _ | .double _ => true
  | _ => false

def isString : Value → Bool
  | .string _ => true
  | _ => false

def isObject : Value → Bool
  | .object _ => true
  | _ => false

def boolean? : Value → Option Bool
  | .boolean b => some b
  | _ => none

def integer? : Value → Option Int64
  | .integer n => some n
  | _ => none

/-- The number of a numeric value; integers are widened. -/
def double? : Value → Option Double
  | .double x => some x
  | .integer n => some (Double.ofInt64 n)
  | _ => none

def string? : Value → Option String
  | .string text => some text
  | _ => none

def object? : Value → Option Object
  | .object o => some o
  | _ => none

/-- Whether a value counts as true: all but nothing, false, the zeros and the empty text. -/
def truthy : Value → Bool
  | .nothing => false
  | .boolean b => b
  | .integer n => n != 0
  | .double x => !x.isZero
  | .string text => text != ""
  | .object _ => true

end Value
end ObjectModel
