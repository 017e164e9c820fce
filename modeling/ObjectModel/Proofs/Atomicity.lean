import ObjectModel.Proofs.MethodSearch

/-! Operations that fail. Each checks all that can go wrong before it writes, and so leaves the
world as it found it, with one exception: it may have computed orders of classes on the way. What
was recorded then is an order that the class's own computation came to, and the class whose order
could not be computed has none. -/
namespace ObjectModel

variable {β σ : Type}

namespace Action

variable {S α γ : Type}

def Atomic (a : Action S α) : Prop := ∀ s e, (a.run s).1 = .error e → (a.run s).2 = s

def Looks (a : Action S α) : Prop := ∀ s, (a.run s).2 = s

def Succeeds (a : Action S α) : Prop := ∀ s e, (a.run s).1 ≠ .error e

def Keeps (part : S → γ) (a : Action S α) : Prop := ∀ s, part (a.run s).2 = part s

theorem Succeeds.atomic {a : Action S α} (succeeds : a.Succeeds) : a.Atomic :=
  fun s e failed => absurd failed (succeeds s e)

theorem atomic_fail (e : Error) : (fail e : Action S α).Atomic := fun _ _ _ => rfl

theorem looks_get : (get : Action S S).Looks := fun _ => rfl

theorem looks_read (f : S → Except Error α) : (read f).Looks := fun _ => rfl

theorem looks_ofExcept (r : Except Error α) : (ofExcept r : Action S α).Looks := fun _ => rfl

theorem succeeds_modify (f : S → S) : (modify f).Succeeds := fun _ _ => nofun

theorem succeeds_update (f : S → α × S) : (update f).Succeeds := fun _ _ => nofun

theorem succeeds_pure (a : α) : (pure a : Action S α).Succeeds := fun _ _ => nofun

variable {a : Action S α} {f : α → Action S γ}

/-- A sequence that fails and whose second part is atomic leaves what the first part left. -/
theorem state_of_bind_error {s : S} {e : Error} (atomic : ∀ x, (f x).Atomic)
    (failed : ((a >>= f).run s).1 = .error e) : ((a >>= f).run s).2 = (a.run s).2 := by
  rw [run_bind] at failed ⊢
  rcases outcome : a.run s with ⟨_ | x,next⟩
  · rfl
  · rw [outcome] at failed
    exact atomic x next e failed

theorem Looks.bind (looks : a.Looks) (atomic : ∀ x, (f x).Atomic) : (a >>= f).Atomic :=
  fun s _ failed => (state_of_bind_error atomic failed).trans (looks s)

theorem Succeeds.bind (succeeds : a.Succeeds) (follows : ∀ x, (f x).Succeeds) :
    (a >>= f).Succeeds := by
  intro s e failed
  rw [run_bind] at failed
  rcases outcome : a.run s with ⟨e' | x,next⟩
  · exact succeeds s e' (congrArg Prod.fst outcome)
  · rw [outcome] at failed
    exact follows x next e failed

variable {δ : Type} {part : S → δ}

theorem Looks.keeps (looks : a.Looks) : a.Keeps part := fun s => congrArg part (looks s)

theorem keeps_modify {f : S → S} (same : ∀ s, part (f s) = part s) : (modify f).Keeps part := same

theorem keeps_update {f : S → α × S} (same : ∀ s, part (f s).2 = part s) :
    (update f).Keeps part := same

theorem Keeps.bind (first : a.Keeps part) (second : ∀ x, (f x).Keeps part) :
    (a >>= f).Keeps part := by
  intro s
  have before := first s
  rw [run_bind]
  rcases outcome : a.run s with ⟨_ | x,next⟩ <;> rw [outcome] at before
  · exact before
  · exact (second x next).trans before

end Action

open ObjectModel.Action

namespace Scope

theorem atomic_defineVariable (scope : Scope) (v : Variable) :
    (scope.defineVariable v : Action (Store β) Unit).Atomic := by
  refine looks_get.bind fun store => ?_
  split
  · exact atomic_fail _
  · exact (succeeds_modify _).atomic

theorem atomic_define (scope : Scope) (name : String) (type : TypeName) (value : Value)
    (locked : Bool) : (scope.define name type value locked : Action (Store β) Unit).Atomic :=
  (looks_read _).bind fun _ => scope.atomic_defineVariable _

section

/-! A variable goes into one frame, so to define it keeps every part of the store that the frames
have no share in. -/

variable {γ : Type} {part : Store β → γ}
  (apart : ∀ store scope f, part (store.modifyFrame scope f) = part store)
include apart

theorem keeps_defineVariable (scope : Scope) (v : Variable) :
    (scope.defineVariable v : Action (Store β) Unit).Keeps part := by
  refine looks_get.keeps.bind fun store => ?_
  split
  · exact fun _ => rfl
  · exact keeps_modify fun _ => apart _ _ _

theorem keeps_define (scope : Scope) (name : String) (type : TypeName) (value : Value)
    (locked : Bool) : (scope.define name type value locked : Action (Store β) Unit).Keeps part :=
  (looks_read _).keeps.bind fun _ => keeps_defineVariable apart scope _

end

theorem atomic_assign (scope : Scope) (name : String) (value : Value) :
    (scope.assign name value : Action (Store β) Unit).Atomic := by
  refine looks_get.bind fun store => ?_
  split
  · exact atomic_fail _
  · split
    · exact atomic_fail _
    · exact (looks_ofExcept _).bind fun _ => (succeeds_modify _).atomic

theorem atomic_defineFunction (scope : Scope) (f : Function β) :
    (scope.defineFunction f).Atomic := by
  refine looks_get.bind fun store => ?_
  split
  · exact atomic_fail _
  · exact ((succeeds_modify _).bind fun _ => succeeds_pure _).atomic

theorem atomic_defineClass (scope : Scope) (c : Class β) : (scope.defineClass c).Atomic := by
  refine looks_get.bind fun store => ?_
  split
  · exact atomic_fail _
  · exact ((succeeds_update _).bind fun _ =>
      (succeeds_modify _).bind fun _ => succeeds_pure _).atomic

end Scope

theorem Object.atomic_setMember (o : Object) (name : String) (value : Value) (caller : Caller) :
    (o.setMember name value caller : Action (Store β) Unit).Atomic :=
  looks_get.bind fun _ => (looks_ofExcept _).bind fun _ =>
    (looks_ofExcept _).bind fun _ => (succeeds_modify _).atomic

theorem ClassId.store_of_instantiate_error {c : ClassId} {scope : Scope} {store : Store β}
    {e : Error} (failed : ((c.instantiate scope).run store).1 = .error e) :
    ((c.instantiate scope).run store).2 = ((c.linearization scope).run store).2 :=
  state_of_bind_error (fun _ => (looks_read _).bind fun _ => (succeeds_update _).atomic) failed

namespace Context

variable {ctx : Context} {name : String} {c : ClassId} {store : Store β} {e : Error}

theorem run_newObject_of_missing (missing : ctx.scope.lookupClass store name = .error e) :
    (ctx.newObject name).run store = (.error e,store) := by
  rw [newObject,run_bind,run_read,missing]

theorem run_newObject_of_found (found : ctx.scope.lookupClass store name = .ok c) :
    (ctx.newObject name).run store = (c.instantiate ctx.scope >>= fun o =>
      update (ctx.runtime.registry.register o) >>= fun _ => pure o).run store := by
  rw [newObject,run_bind,run_read,found]

theorem store_of_newObject_error (found : ctx.scope.lookupClass store name = .ok c)
    (failed : ((ctx.newObject name).run store).1 = .error e) :
    ((ctx.newObject name).run store).2 = ((c.linearization ctx.scope).run store).2 := by
  have registered : ∀ o : Object, (update (ctx.runtime.registry.register o) >>= fun _ =>
      (pure o : Action (Store β) Object)).Succeeds :=
    fun o => (succeeds_update _).bind fun _ => succeeds_pure o
  rw [run_newObject_of_found found] at failed ⊢
  rw [state_of_bind_error (fun o => (registered o).atomic) failed]
  -- The registration cannot have failed, so the making of the instance has.
  rw [run_bind] at failed
  rcases made : (c.instantiate ctx.scope).run store with ⟨e' | o,next⟩
  · rw [← made]
    exact ClassId.store_of_instantiate_error (congrArg Prod.fst made)
  · rw [made] at failed
    exact absurd failed (registered o next e)

end Context

namespace World

theorem atomic_onStore {α : Type} {a : Action (Store β) α} (atomic : a.Atomic) :
    (onStore a : Action (World β σ) α).Atomic := by
  intro w e failed
  rw [run_onStore] at failed ⊢
  rw [atomic w.store e failed]

theorem looks_onHost {α : Type} {a : Action σ α} (looks : a.Looks) :
    (onHost a : Action (World β σ) α).Looks :=
  fun w => congrArg (World.mk w.store) (looks w.host)

end World

theorem Resolution.looks_settle {verdict : Verdict β} {supply : Supply β σ} {name : String}
    {caller : Caller} (unaided : ∀ handler, verdict ≠ .consult handler) :
    (settle supply name caller verdict).Looks := by
  cases verdict with
  | found f => exact fun _ => rfl
  | denied | missing => exact fun _ => rfl
  | consult handler => exact absurd rfl (unaided handler)

/-- A resolution without a handler computes the order of its class and changes nothing else. -/
theorem ClassId.world_of_resolve {c : ClassId} {scope : Scope} {name : String} {caller : Caller}
    {w : World β σ} (supply : Resolution.Supply β σ)
    (unaided : ∀ order handler, ((c.linearization scope).run w.store).1 = .ok order →
      Resolution.search (w.store.classOf c)
        (Resolution.visibleAncestors w.store (some scope) order) name caller ≠ .consult handler) :
    ((c.resolve supply scope name caller).run w).2 =
      { w with store := ((c.linearization scope).run w.store).2 } := by
  cases available : ((c.linearization scope).run w.store).1 with
  | error e => rw [run_resolve_of_error available]
  | ok order =>
    rw [run_resolve_of_ok available]
    exact World.looks_onHost (Resolution.looks_settle fun handler =>
      unaided order handler available) _

namespace Request

def linearizes? (ctx : Context) (store : Store β) : Request β → Option ClassId
  | .linearize c | .instantiate c | .resolve c _ _ => some c
  | .newObject name => (ctx.scope.lookupClass store name).toOption
  | _ => none

/-- The request comes down to the answer of a fallback handler. -/
def Consults (ctx : Context) (store : Store β) : Request β → Prop
  | .resolve c name caller => ∃ order handler,
    ((c.linearization ctx.scope).run store).1 = .ok order ∧
      Resolution.search (store.classOf c)
        (Resolution.visibleAncestors store (some ctx.scope) order) name caller = .consult handler
  | .dispatch o name caller => ∃ handler,
    Resolution.search (store.definitionOf o)
      (Resolution.visibleAncestors store (store.object o).scope (store.object o).hierarchy)
      name caller = .consult handler
  | _ => False

def linearized (ctx : Context) (store : Store β) (request : Request β) : Store β :=
  match request.linearizes? ctx store with
  | some c => ((c.linearization ctx.scope).run store).2
  | none => store

theorem world_of_error {host : Host β σ} {ctx : Context} {w : World β σ} {request : Request β}
    {e : Error} (failed : ((request.perform host ctx).run w).1 = .error e)
    (unaided : ¬request.Consults ctx w.store) :
    ((request.perform host ctx).run w).2 =
      { w with store := request.linearized ctx w.store } := by
  cases request with
  | define name type value locked =>
    exact World.atomic_onStore (ctx.scope.atomic_define name type value locked) w e failed
  | defineVariable v =>
    exact World.atomic_onStore (ctx.scope.atomic_defineVariable v) w e failed
  | assign name value =>
    exact World.atomic_onStore (ctx.scope.atomic_assign name value) w e failed
  | defineFunction f => exact World.atomic_onStore (ctx.scope.atomic_defineFunction f) w e failed
  | defineClass c => exact World.atomic_onStore (ctx.scope.atomic_defineClass c) w e failed
  | setMember o name value caller =>
    exact World.atomic_onStore (o.atomic_setMember name value caller) w e failed
  | linearize c => rfl
  | instantiate c =>
    exact congrArg (World.mk · w.host) (ClassId.store_of_instantiate_error failed)
  | newObject name =>
    cases found : ctx.scope.lookupClass w.store name with
    | error missing =>
      have same : linearized ctx w.store (.newObject name) = w.store := by
        simp [linearized,linearizes?,found,Except.toOption]
      rw [same]
      exact congrArg (World.mk · w.host)
        (congrArg Prod.snd (Context.run_newObject_of_missing found))
    | ok c =>
      have ordered : linearized ctx w.store (.newObject name) =
          ((c.linearization ctx.scope).run w.store).2 := by
        simp [linearized,linearizes?,found,Except.toOption]
      rw [ordered]
      exact congrArg (World.mk · w.host) (Context.store_of_newObject_error found failed)
  | resolve c name caller =>
    exact ClassId.world_of_resolve host.supply fun order handler available consulted =>
      unaided ⟨order,handler,available,consulted⟩
  | dispatch o name caller =>
    exact World.looks_onHost (Resolution.looks_settle fun handler consulted =>
      unaided ⟨handler,consulted⟩) w
  | _ => exact nomatch failed

end Request

/-- An order goes into the memo that the class's own computation, made at that point, comes to. -/
def Enters (store : Store β) (scope : Scope) (memo later : Memo) : Prop :=
  ∃ c order, memo.get? c = none ∧ later = memo.record c order ∧
    (c.linearization scope).run { store with memo } = (.ok order,{ store with memo := later })

theorem Records.enters {store : Store β} {scope : Scope} {met : ClassId → Prop}
    {memo later : Memo} (step : Records store scope met memo later) :
    Enters store scope memo later := by
  obtain ⟨_,fresh,inherits,known⟩ := step
  exact ⟨_,_,fresh,rfl,ClassId.linearization_of_inherits fresh (inherits.withMemo memo) known⟩

/-- Whatever a linearization records, succeeding or not, each class computes for itself. -/
theorem ClassId.linearization_enters (c : ClassId) (scope : Scope) (store : Store β) :
    Relation.ReflTransGen (Enters store scope) store.memo
      ((c.linearization scope).run store).2.memo := by
  have met : ∀ name d, scope.lookupClass store name = .ok d → (fun _ => True) d :=
    fun _ _ _ => trivial
  have steps := (linearization_records met c trivial).1
  exact Relation.ReflTransGen.mono (fun _ _ => Records.enters) _ _ steps

/-- What can fail: the requests, and what is made of values at hand. A variable at hand is itself
such a value, and an assignment that fails gives none in its place. -/
inductive Operation (β : Type) where
  | ask (request : Request β)
  | create (name : String) (type : TypeName) (value : Value)
  | assign (v : Variable) (value : Value)
  | bind (f : Function β) (arguments : List Value)

namespace Operation

def Answer : Operation β → Type
  | .ask request => request.Answer
  | .create .. | .assign .. => Variable
  | .bind .. => List Value

def perform (host : Host β σ) (ctx : Context) : (op : Operation β) → Action (World β σ) op.Answer
  | .ask request => request.perform host ctx
  | .create name type value => Action.read fun w => Variable.create w.store name type value
  | .assign v value => Action.read fun w => v.assign w.store value
  | .bind f arguments => Action.read fun w => f.bindArguments w.store arguments

def linearizes? (ctx : Context) (store : Store β) : Operation β → Option ClassId
  | .ask request => request.linearizes? ctx store
  | _ => none

def Consults (ctx : Context) (store : Store β) : Operation β → Prop
  | .ask request => request.Consults ctx store
  | _ => False

end Operation

/-- An operation that fails, and asks no handler, leaves everything as it was except for orders
that were recorded on the way. Each of these is what the class's own computation came to, and the
class whose order was asked for and not found has none. -/
theorem failed_operation_atomic {host : Host β σ} {ctx : Context} {w : World β σ}
    {op : Operation β} {e : Error} (failed : ((op.perform host ctx).run w).1 = .error e)
    (unaided : ¬op.Consults ctx w.store) :
    ∃ memo, ((op.perform host ctx).run w).2 = { w with store := { w.store with memo } } ∧
      Relation.ReflTransGen (Enters w.store ctx.scope) w.store.memo memo ∧
      ∀ c fault, op.linearizes? ctx w.store = some c →
        ((c.linearization ctx.scope).run w.store).1 = .error fault → memo.get? c = none := by
  cases op with
  | ask request =>
    have left := request.world_of_error failed unaided
    rw [Request.linearized] at left
    cases asked : request.linearizes? ctx w.store with
    | none =>
      rw [asked] at left
      refine ⟨w.store.memo,left,.refl,fun c _ same => ?_⟩
      exact absurd (asked.symm.trans same) nofun
    | some c =>
      rw [asked] at left
      refine ⟨((c.linearization ctx.scope).run w.store).2.memo,left,
        c.linearization_enters ctx.scope w.store,fun d fault same failure => ?_⟩
      obtain rfl := Option.some.inj (asked.symm.trans same)
      exact ClassId.linearization_spares failure
  | create | assign | bind => exact ⟨w.store.memo,rfl,.refl,nofun⟩

/-! A class one of whose two parents is missing. -/
namespace Halfway

def moves : List (Move Unit) :=
  [.ask Runtime.first.globalContext (.defineClass { name := "A", modulePath := "m" }),
    .ask Runtime.first.globalContext
      (.defineClass { name := "C", modulePath := "m", parents := ["A","B"] })]

def world : World Unit Unit := World.first.play .idle moves

def attempt : Operation Unit := .ask (.newObject "C")

end Halfway

theorem failed_operation_atomic_halfway :
    ((Halfway.attempt.perform .idle Runtime.first.globalContext).run Halfway.world).1 =
      .error (.notFound .classDefinition "B") ∧
    ∃ memo, ((Halfway.attempt.perform .idle Runtime.first.globalContext).run Halfway.world).2 =
        { Halfway.world with store := { Halfway.world.store with memo } } ∧
      memo.get? ⟨0⟩ = some ["m.A"] ∧ memo.get? ⟨1⟩ = none := by
  have failed : ((Halfway.attempt.perform .idle Runtime.first.globalContext).run Halfway.world).1 =
      .error (.notFound .classDefinition "B") := rfl
  obtain ⟨memo,same,_,unrecorded⟩ := failed_operation_atomic failed not_false
  obtain rfl : _ = memo := congrArg (·.store.memo) same
  exact ⟨failed,_,same,rfl,unrecorded ⟨1⟩ (.notFound .classDefinition "B") rfl rfl⟩

end ObjectModel
