import ObjectModel.Cast

/-! Equality: of doubles as numbers, of values without conversion, and that of the language, which
the left value decides. -/
namespace ObjectModel

variable {β : Type}

/-- Numeric equality: a NaN differs from every number, itself included, and the two zeros agree. -/
def Double.equal (x y : Double) : Bool :=
  !x.isNaN && !y.isNaN && (x.isZero && y.isZero || x.bits == y.bits)

namespace Value

/-- Strict equality: the same kind and the same content, with no conversion. Doubles compare as
numbers and objects by identity. -/
def same : Value → Value → Bool
  | .nothing, .nothing => true
  | .boolean a, .boolean b => a == b
  | .integer a, .integer b => a == b
  | .double a, .double b => a.equal b
  | .string a, .string b => a == b
  | .object a, .object b => a == b
  | _, _ => false

def castsTo (store : Store β) (v : Value) (target : TypeName) (expected : Value) : Bool :=
  match v.cast store target with
  | .ok w => w.same expected
  | .error _ => false

/-- Equality of the language: the right value is cast to the kind of the left one, and a cast
that fails means they differ. Integers and doubles compare as numbers. Nothing equals nothing
alone, but a detached object on the left equals nothing too. -/
def equalTo (store : Store β) (left right : Value) : Bool :=
  match left with
  | .nothing => right.isNothing
  | .boolean b => !right.isNothing && right.castsTo store .boolean (.boolean b)
  | .integer n =>
    match right with
    | .double y => (Double.ofInt64 n).equal y
    | _ => !right.isNothing && right.castsTo store .integer (.integer n)
  | .double x => !right.isNothing && right.castsTo store .double (.double x)
  | .string s => !right.isNothing && right.castsTo store .string (.string s)
  | .object o =>
    match right with
    | .nothing => o.isDetached store
    | .object other => o == other
    | _ => false

end Value
end ObjectModel
