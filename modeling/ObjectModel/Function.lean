import ObjectModel.Variable

/-! Functions as declared. The code of a body is a parameter: only the host that runs it looks
inside. -/
namespace ObjectModel

structure Parameter where
  name : String
  type : TypeName
  deriving DecidableEq, Repr

/-- A free function, a method of a class, or a method of its instances. -/
inductive FunctionKind where
  | free
  | shared
  | method
  deriving DecidableEq, Repr, Inhabited

/-- Native bodies are run by the host itself, interpreted ones by its evaluator. -/
inductive Body (β : Type) where
  | native (code : β)
  | interpreted (code : β)
  deriving DecidableEq, Repr

structure Function (β : Type) where
  name : String
  returnType : TypeName := .any
  parameters : List Parameter := []
  variadic : Bool := false
  body : Body β
  kind : FunctionKind := .free
  documentation : List String := []
  deriving DecidableEq, Repr

namespace Function

variable {β : Type}

def isNative (f : Function β) : Bool :=
  match f.body with
  | .native _ => true
  | .interpreted _ => false

def arity (f : Function β) : Nat := f.parameters.length

/-- Whether a method belongs to its class; free functions belong to none. -/
def isShared (f : Function β) : Option Bool :=
  match f.kind with
  | .free => none
  | .shared => some true
  | .method => some false

def withKind (f : Function β) (kind : FunctionKind) : Function β := { f with kind }

/-- A free function becomes a method of instances; methods stay what they are. -/
def asMethod (f : Function β) : Function β :=
  match f.kind with
  | .free => f.withKind .method
  | _ => f

theorem name_asMethod (f : Function β) : f.asMethod.name = f.name := by
  unfold asMethod
  split <;> rfl

/-- How many arguments the function takes: exactly its fixed parameters, or at least those. -/
def admits (f : Function β) (count : Nat) : Bool :=
  if f.variadic then decide (f.arity ≤ count) else count == f.arity

end Function
end ObjectModel
