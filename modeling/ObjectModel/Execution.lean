import ObjectModel.Program
import ObjectModel.Resolution

/-! Execution of programs: requests act on the store, calls enter bodies one level deeper, and
blocks run in contexts of their own. A call holds the context it is made in, may act under another
identity for its time, and hands the context back to the program that made it. -/
namespace ObjectModel

variable {β σ : Type}

/-- What running a program comes to: a value or an error, with the world it leaves. There is
none if calls nest deeper than the levels allowed for the run. -/
abbrev Outcome (β σ : Type) := Option (Except Error Value × World β σ)

abbrev Enter (β σ : Type) := Context → Program β σ → World β σ → Outcome β σ

def Request.perform (host : Host β σ) (ctx : Context) :
    (r : Request β) → Action (World β σ) r.Answer
  | .define name type value locked => World.onStore (ctx.scope.define name type value locked)
  | .defineVariable v => World.onStore (ctx.scope.defineVariable v)
  | .assign name value => World.onStore (ctx.scope.assign name value)
  | .clearScope => World.onStore ctx.scope.clear
  | .defineFunction f => World.onStore (ctx.scope.defineFunction f)
  | .defineClass c => World.onStore (ctx.scope.defineClass c)
  | .makeClass c => World.onStore (Action.update (·.addClass c))
  | .linearize c => World.onStore (c.linearization ctx.scope)
  | .setParents c parents => World.onStore (c.setParents parents)
  | .resolve c name caller => c.resolve host.supply ctx.scope name caller
  | .dispatch o name caller => o.dispatch host.supply name caller
  | .newObject className => World.onStore (ctx.newObject className)
  | .instantiate c => World.onStore (c.instantiate ctx.scope)
  | .detach c => World.onStore c.detached
  | .setMember o name value caller => World.onStore (o.setMember name value caller)
  | .register o => World.onStore (Action.update (ctx.runtime.registry.register o))
  | .release h => World.onStore (Action.update (ctx.runtime.registry.release h))
  | .clearRegistry => World.onStore (Action.modify ctx.runtime.registry.clear)
  | .shutdown => World.onStore ctx.runtime.shutdown
  | .setHostData o data => World.onStore (Action.modify (o.setHostData data))
  | .takeHostData o kind => World.onStore (Action.update (o.takeHostData kind))

namespace Context

def defineParameters (scope : Scope) : List (Parameter × Value) → Action (Store β) Unit
  | [] => pure ()
  | (p, value) :: rest => do
    scope.define p.name p.type value false
    defineParameters scope rest

/-- Casts the result of a body to the declared type of its function. -/
def finish (f : Function β) : Outcome β σ → Outcome β σ
  | some (.ok v, w) => some (v.cast w.store f.returnType, w)
  | other => other

/-- Invokes a function. The arguments are bound first, then the depth is checked, and only then
does anything change. -/
def invoke (host : Host β σ) (enter : Enter β σ) (ctx : Context) (f : Function β)
    (receiver : Option Object) (arguments : List Value) (w : World β σ) : Outcome β σ :=
  match f.bindArguments w.store arguments with
  | .error e => some (.error e, w)
  | .ok bound =>
    if ctx.runtime.maxCallDepth < ctx.depth + 1 then
      some (.error (.stackOverflow (ctx.depth + 1) ctx.runtime.maxCallDepth), w)
    else
      let receiver := receiverFor f.kind receiver
      let (inner, store) := ctx.callee receiver w.store
      match f.body with
      | .native code => finish f (enter inner (host.native code receiver bound) { w with store })
      | .interpreted code =>
        match (defineParameters inner.scope (f.parameters.zip bound)).run store with
        | (.error e, store) => some (.error e, { w with store })
        | (.ok _, store) =>
          if ctx.runtime.evaluator then
            finish f (enter inner (host.evaluate f code receiver bound) { w with store })
          else some (.error (.noEvaluator f.name), { w with store })

def invokeFound (host : Host β σ) (enter : Enter β σ) (ctx : Context)
    (find : Action (World β σ) (Function β)) (receiver : Option Object) (arguments : List Value)
    (w : World β σ) : Outcome β σ :=
  match find.run w with
  | (.error e, w) => some (.error e, w)
  | (.ok f, w) => ctx.invoke host enter f receiver arguments w

def callFunction (host : Host β σ) (enter : Enter β σ) (ctx : Context) (name : String)
    (arguments : List Value) : World β σ → Outcome β σ :=
  ctx.invokeFound host enter
    (World.onStore (Action.read fun store => ctx.scope.lookupFunction store name)) none arguments

def callMethod (host : Host β σ) (enter : Enter β σ) (ctx : Context) (o : Object)
    (name : String) (caller : Caller) (arguments : List Value) : World β σ → Outcome β σ :=
  ctx.invokeFound host enter (o.dispatch host.supply name caller) (some o) arguments

/-- Calls a method of a class. It is resolved for the caller, and runs as the class: the context
takes the identity of the class for the invocation and gets the caller's own back after it. -/
def callShared (host : Host β σ) (enter : Enter β σ) (ctx : Context) (className name : String)
    (arguments : List Value) (w : World β σ) : Outcome β σ × Context :=
  match ctx.scope.lookupClass w.store className with
  | .error e => (some (.error e, w), ctx)
  | .ok c =>
    match (c.resolve host.supply ctx.scope name ctx.caller).run w with
    | (.error e, w) => (some (.error e, w), ctx)
    | (.ok f, w) =>
      let acting := ctx.withCaller (w.store.classOf c).identity
      (acting.invoke host enter f none arguments w, acting.withCaller ctx.caller)

/-- Makes a registered instance and runs its constructor. A class without one takes no
arguments. Whatever fails after the instance is registered leaves it so. -/
def construct (host : Host β σ) (enter : Enter β σ) (ctx : Context) (className : String)
    (arguments : List Value) (w : World β σ) : Outcome β σ :=
  match (World.onStore (ctx.newObject className)).run w with
  | (.error e, w) => some (.error e, w)
  | (.ok o, w) =>
    let definition := w.store.definitionOf o
    match definition.constructor? with
    | some f =>
      match ctx.invoke host enter f (some o) arguments w with
      | some (.ok _, w) => some (.ok (.object o), w)
      | other => other
    | none =>
      if arguments.isEmpty then some (.ok (.object o), w)
      else some (.error (.arityMismatch definition.name 0 arguments.length false), w)

end Context

def Call.perform (host : Host β σ) (enter : Enter β σ) (ctx : Context) (c : Call β)
    (w : World β σ) : Outcome β σ × Context :=
  match c with
  | .function name arguments => (ctx.callFunction host enter name arguments w, ctx)
  | .method o name caller arguments =>
    (ctx.callMethod host enter o name (caller.getD ctx.caller) arguments w, ctx)
  | .shared className name arguments => ctx.callShared host enter className name arguments w
  | .construct className arguments => (ctx.construct host enter className arguments w, ctx)
  | .invoke f receiver arguments => (ctx.invoke host enter f receiver arguments w, ctx)

def Opening.enter (opening : Opening) (caller : Option Caller) (ctx : Context)
    (store : Store β) : Context × Store β :=
  let (inner, store) :=
    match opening with
    | .child => ctx.child store
    | .fork => ctx.fork store
  (match caller with
    | some caller => inner.withCaller caller
    | none => inner, store)

namespace Program

def execute (host : Host β σ) (enter : Enter β σ) :
    Program β σ → Context → World β σ → Outcome β σ
  | .done v, _, w => some (.ok v, w)
  | .raise e, _, w => some (.error e, w)
  | .observe next, ctx, w => (next ctx w).execute host enter ctx w
  | .keep state next, ctx, w => next.execute host enter ctx { w with host := state }
  | .ask request next, ctx, w =>
    match (request.perform host ctx).run w with
    | (answer, w) => (next answer).execute host enter ctx w
  | .call c next, ctx, w =>
    match c.perform host enter ctx w with
    | (none, _) => none
    | (some (result, w), ctx) => (next result).execute host enter ctx w
  | .block opening caller body next, ctx, w =>
    match opening.enter caller ctx w.store with
    | (inner, store) =>
      match body.execute host enter inner { w with store } with
      | none => none
      | some (result, w) => (next result).execute host enter ctx w
  | .lend o kind body update next, ctx, w =>
    match o.takeHostData kind w.store with
    | (none, _) => (next none).execute host enter ctx w
    | (some data, store) =>
      match (body data).execute host enter ctx { w with store } with
      | none => none
      | some (result, w) =>
        (next (some (data, result))).execute host enter ctx
          { w with store := o.restoreHostData (update data result) w.store }

def run (host : Host β σ) : Nat → Context → Program β σ → World β σ → Outcome β σ
  | 0, _, _, _ => none
  | levels + 1, ctx, p, w => p.execute host (run host levels) ctx w

end Program
end ObjectModel
