import ObjectModel.Cast

/-! Values meeting declared types: variables take a cast of what they are given, and functions
bind arguments to parameters. -/
namespace ObjectModel

variable {β : Type}

namespace Variable

/-- A new variable, open to all and not locked, whose value is cast to the declared type. -/
def create (store : Store β) (name : String) (type : TypeName) (value : Value) :
    Except Error Variable :=
  match value.cast store type with
  | .ok value => .ok { name, type, value }
  | .error e => .error (e.withNote (.initializing name))

/-- The value that an assignment would leave. The lock is checked before the value is looked
at. -/
def prepare (store : Store β) (v : Variable) (value : Value) : Except Error Value :=
  if v.locked then .error (.locked v.name) else value.cast store v.type

def assign (store : Store β) (v : Variable) (value : Value) : Except Error Variable :=
  (v.prepare store value).map fun value => { v with value }

end Variable

namespace Function

/-- Casts each argument that has a parameter; the ones behind pass as they are. -/
def bindFixed (store : Store β) (f : Function β) :
    List Parameter → List Value → Except Error (List Value)
  | _, [] => .ok []
  | [], rest => .ok rest
  | p :: parameters, value :: rest =>
    match value.cast store p.type with
    | .error e => .error (e.withNote (.argument p.name f.name))
    | .ok bound =>
      match bindFixed store f parameters rest with
      | .error e => .error e
      | .ok values => .ok (bound :: values)

def bindArguments (store : Store β) (f : Function β) (arguments : List Value) :
    Except Error (List Value) :=
  if f.admits arguments.length then f.bindFixed store f.parameters arguments
  else .error (.arityMismatch f.name f.arity arguments.length f.variadic)

end Function
end ObjectModel
