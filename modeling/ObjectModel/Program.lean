import ObjectModel.Context

/-! What bodies do. A program acts only through the context it runs in and the contexts it opens
from it: it requests changes, calls functions, and runs blocks. -/
namespace ObjectModel

variable {β σ : Type}

/-- One change to the store, in the current context. -/
inductive Request (β : Type) where
  | define (name : String) (type : TypeName) (value : Value) (locked : Bool)
  | defineVariable (v : Variable)
  | assign (name : String) (value : Value)
  | clearScope
  | defineFunction (f : Function β)
  | defineClass (c : Class β)
  /-- Makes a class that no scope names. -/
  | makeClass (c : Class β)
  | linearize (c : ClassId)
  | setParents (c : ClassId) (parents : List String)
  | resolve (c : ClassId) (name : String) (caller : Caller)
  | dispatch (o : Object) (name : String) (caller : Caller)
  | newObject (className : String)
  | instantiate (c : ClassId)
  | detach (c : ClassId)
  | setMember (o : Object) (name : String) (value : Value) (caller : Caller)
  | register (o : Object)
  | release (h : Handle)
  | clearRegistry
  | shutdown
  | setHostData (o : Object) (data : HostData)
  | takeHostData (o : Object) (kind : String)

def Request.Answer : Request β → Type
  | .define .. | .defineVariable .. | .assign .. | .clearScope | .setParents .. | .setMember ..
  | .clearRegistry | .shutdown | .setHostData .. => Unit
  | .defineFunction .. | .resolve .. | .dispatch .. => Function β
  | .defineClass .. | .makeClass .. => ClassId
  | .linearize .. => List String
  | .newObject .. | .instantiate .. | .detach .. => Object
  | .register .. => Handle
  | .release .. => Bool
  | .takeHostData .. => Option HostData

/-- A call: of a function in scope, of a method of an object, of a method of a class, of a class
as a constructor, or of a function at hand. -/
inductive Call (β : Type) where
  | function (name : String) (arguments : List Value)
  /-- Without a caller of its own, the method is resolved for that of the context. -/
  | method (o : Object) (name : String) (caller : Option Caller) (arguments : List Value)
  | shared (className : String) (name : String) (arguments : List Value)
  | construct (className : String) (arguments : List Value)
  | invoke (f : Function β) (receiver : Option Object) (arguments : List Value)

inductive Opening where
  | child
  | fork
  deriving DecidableEq, Repr

inductive Program (β σ : Type) where
  | done (v : Value)
  | raise (e : Error)
  | observe (next : Context → World β σ → Program β σ)
  /-- Leaves a new state with the host. -/
  | keep (host : σ) (next : Program β σ)
  | ask (request : Request β) (next : Except Error request.Answer → Program β σ)
  | call (c : Call β) (next : Except Error Value → Program β σ)
  /-- Runs a block in a context opened from the current one, under another identity if one is
  given. -/
  | block (opening : Opening) (caller : Option Caller) (body : Program β σ)
      (next : Except Error Value → Program β σ)
  /-- Runs a body on the state attached to an object, if it is of the kind, and puts back what
  the update makes of it. -/
  | lend (o : Object) (kind : String) (body : HostData → Program β σ)
      (update : HostData → Except Error Value → HostData)
      (next : Option (HostData × Except Error Value) → Program β σ)

instance : Inhabited (Program β σ) := ⟨.done .nothing⟩

def Program.andThen : Program β σ → (Except Error Value → Program β σ) → Program β σ
  | .done v, next => next (.ok v)
  | .raise e, next => next (.error e)
  | .observe k, next => .observe fun ctx w => (k ctx w).andThen next
  | .keep host p, next => .keep host (p.andThen next)
  | .ask r k, next => .ask r fun answer => (k answer).andThen next
  | .call c k, next => .call c fun result => (k result).andThen next
  | .block opening caller body k, next =>
    .block opening caller body fun result => (k result).andThen next
  | .lend o kind body update k, next =>
    .lend o kind body update fun result => (k result).andThen next

/-- How a host runs code: native bodies, interpreted bodies through its evaluator, and fallback
handlers, which see the name, the caller and the host's own state alone. -/
structure Host (β σ : Type) where
  native : β → Option Object → List Value → Program β σ
  evaluate : Function β → β → Option Object → List Value → Program β σ
  supply : β → String → Caller → Action σ (Function β)

end ObjectModel
