import ObjectModel.Object.Member
import ObjectModel.Object.Registration
import ObjectModel.Scope.Definition

/-! Runtimes and contexts. A runtime owns a global scope and a registry; a context adds to it a
current scope, the identity of the running code, its receiver and its call depth. -/
namespace ObjectModel

variable {β : Type}

def defaultCallDepth : Nat := 1000

def version : String := "0.0.1"

structure Runtime where
  global : Scope
  registry : Registry
  maxCallDepth : Nat
  /-- Whether interpreted bodies can run. -/
  evaluator : Bool
  deriving DecidableEq, Repr

structure Context where
  runtime : Runtime
  scope : Scope
  caller : Caller := .outside
  receiver : Option Object := none
  depth : Nat := 0
  deriving DecidableEq, Repr

namespace Context

def withCaller (ctx : Context) (caller : Caller) : Context := { ctx with caller }

def child (ctx : Context) (store : Store β) : Context × Store β :=
  let (scope, store) := store.child ctx.scope
  ({ ctx with scope }, store)

end Context

namespace Runtime

def create (maxCallDepth : Nat) (evaluator : Bool) (store : Store β) : Runtime × Store β :=
  let (global, store) := store.root
  let (registry, store) := store.addRegistry
  ({ global, registry, maxCallDepth, evaluator }, store)

/-- The same runtime with interpreted bodies enabled. -/
def withEvaluator (r : Runtime) : Runtime := { r with evaluator := true }

/-- A context in a new module scope, directly inside the global one. -/
def context (r : Runtime) (store : Store β) : Context × Store β :=
  let (scope, store) := store.child r.global
  ({ runtime := r, scope }, store)

def globalContext (r : Runtime) : Context := { runtime := r, scope := r.global }

/-- Forgets the registered instances and the global definitions. -/
def shutdown (r : Runtime) : Action (Store β) Unit := do
  Action.modify r.registry.clear
  r.global.clear

end Runtime

namespace Context

/-- An independent context in a new module scope: nothing of the current scope, caller,
receiver or depth goes with it. -/
def fork (ctx : Context) (store : Store β) : Context × Store β := ctx.runtime.context store

/-- A registered instance of the named class, on which no constructor has run. -/
def newObject (ctx : Context) (name : String) : Action (Store β) Object := do
  let c ← Action.read fun store => ctx.scope.lookupClass store name
  let o ← c.instantiate ctx.scope
  let _ ← Action.update (ctx.runtime.registry.register o)
  return o

/-- The receiver that a function of some kind is given: only methods of instances have one. -/
def receiverFor (kind : FunctionKind) (receiver : Option Object) : Option Object :=
  match kind with
  | .method => receiver
  | .free | .shared => none

/-- The context that a body runs in. A method takes the identity of its receiver's class, and a
new scope inside the one where the receiver was made; other bodies keep the caller's identity
and get a new scope inside the caller's. -/
def callee (ctx : Context) (receiver : Option Object) (store : Store β) : Context × Store β :=
  let caller :=
    match receiver with
    | some o => (store.definitionOf o).identity
    | none => ctx.caller
  let outer := (receiver.bind fun o => (store.object o).scope).getD ctx.scope
  let (scope, store) := store.child outer
  ({ ctx with scope, caller, receiver, depth := ctx.depth + 1 }, store)

end Context
end ObjectModel
