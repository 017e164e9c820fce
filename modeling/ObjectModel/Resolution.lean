import ObjectModel.Hierarchy

/-! Method resolution: a class answers for itself first, then its ancestors in their order, and
at last the first fallback handler among them. -/
namespace ObjectModel

variable {β σ : Type}

namespace Resolution

inductive Verdict (β : Type) where
  | found (f : Function β)
  | denied
  | missing
  /-- No class has the method, and this handler is the first that may supply one. -/
  | consult (handler : β)
  deriving Repr

/-- The first method that one of the classes offers. The flag says whether a class denied one
before. -/
def firstOffer (name : String) (caller : Caller) : List (Class β) → Bool → Class.Offer β
  | [], false => .missing
  | [], true => .denied
  | c :: rest, denied =>
    match c.offer name caller with
    | .found f => .found f
    | .denied => firstOffer name caller rest true
    | .missing => firstOffer name caller rest denied

/-- The search of a class and the ancestors that are visible. The class may refuse outright;
an ancestor that refuses is passed over, and counts only if nothing else answers. -/
def search (own : Class β) (ancestors : List (Class β)) (name : String) (caller : Caller) :
    Verdict β :=
  match own.offer name caller with
  | .found f => .found f
  | .denied => .denied
  | .missing =>
    match firstOffer name caller ancestors false with
    | .found f => .found f
    | refusal =>
      match (own :: ancestors).findSome? (·.fallback) with
      | some handler => .consult handler
      | none =>
        match refusal with
        | .denied => .denied
        | _ => .missing

/-- The ancestors named behind the head of a linearization that a scope can see. -/
def visibleAncestors (store : Store β) (scope : Option Scope) (order : List String) :
    List (Class β) :=
  match scope with
  | none => []
  | some scope =>
    order.tail.filterMap fun name =>
      match scope.lookupClass store name with
      | .ok c => some (store.classOf c)
      | .error _ => none

/-- What supplies a method under a fallback handler, for a name and a caller. -/
abbrev Supply (β σ : Type) := β → String → Caller → Action σ (Function β)

/-- The method that a search found or a handler supplies. A free function from a handler acts
on the instance it was resolved for. -/
def settle (supply : Supply β σ) (name : String) (caller : Caller) :
    Verdict β → Action σ (Function β)
  | .found f => pure f
  | .denied => Action.fail (.inaccessible .memberFunction name)
  | .missing => Action.fail (.notFound .memberFunction name)
  | .consult handler => do
    let f ← supply handler name caller
    return f.asMethod

def resolveAlong (supply : Supply β σ) (c : ClassId) (scope : Option Scope) (order : List String)
    (name : String) (caller : Caller) : Action (World β σ) (Function β) := do
  let world ← Action.get
  let store := world.store
  World.onHost (settle supply name caller
    (search (store.classOf c) (visibleAncestors store scope order) name caller))

end Resolution

def ClassId.resolve (supply : Resolution.Supply β σ) (c : ClassId) (scope : Scope)
    (name : String) (caller : Caller) : Action (World β σ) (Function β) := do
  let order ← World.onStore (c.linearization scope)
  Resolution.resolveAlong supply c (some scope) order name caller

/-- The method of an object under a name: its own hierarchy, as its own scope sees it. -/
def Object.dispatch (supply : Resolution.Supply β σ) (o : Object) (name : String)
    (caller : Caller) : Action (World β σ) (Function β) := do
  let world ← Action.get
  let it := world.store.object o
  Resolution.resolveAlong supply it.definition it.scope it.hierarchy name caller

end ObjectModel
