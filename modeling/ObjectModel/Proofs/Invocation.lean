import ObjectModel.Proofs.Atomicity

/-! Invocations up to the body. Before a body is entered an invocation binds arguments, checks the
depth and opens a scope, and each of these may end it. A construction makes and registers its
instance before it invokes the constructor. So where it fails short of the body, a class that is not
found or has no order leaves the registry alone; but if the arguments do not fit, the calls are too
deep or there is no evaluator, the handle of the instance stays behind, and no one is told of it. -/
namespace ObjectModel

variable {β σ : Type}

/-- What an invocation comes to before a body is entered: it stops, or a program is to be run. -/
inductive Prelude (β σ : Type) where
  | stopped (e : Error) (w : World β σ)
  | entered (inner : Context) (p : Program β σ) (w : World β σ)

namespace Prelude

def world : Prelude β σ → World β σ
  | .stopped _ w | .entered _ _ w => w

def finish (enter : Enter β σ) (f : Function β) : Prelude β σ → Outcome β σ
  | .stopped e w => some (.error e,w)
  | .entered inner p w => Context.finish f (enter inner p w)

end Prelude

/-- Enters no body. A run in which one would be entered comes to nothing. -/
def Enter.never : Enter β σ := fun _ _ _ => none

namespace Context

def prelude (host : Host β σ) (ctx : Context) (f : Function β) (receiver : Option Object)
    (arguments : List Value) (w : World β σ) : Prelude β σ :=
  match f.bindArguments w.store arguments with
  | .error e => .stopped e w
  | .ok bound =>
    if ctx.runtime.maxCallDepth < ctx.depth + 1 then
      .stopped (.stackOverflow (ctx.depth + 1) ctx.runtime.maxCallDepth) w
    else
      let receiver := receiverFor f.kind receiver
      let (inner,store) := ctx.callee receiver w.store
      match f.body with
      | .native code => .entered inner (host.native code receiver bound) { w with store }
      | .interpreted code =>
        match (defineParameters inner.scope (f.parameters.zip bound)).run store with
        | (.error e,store) => .stopped e { w with store }
        | (.ok _,store) =>
          if ctx.runtime.evaluator then
            .entered inner (host.evaluate f code receiver bound) { w with store }
          else .stopped (.noEvaluator f.name) { w with store }

theorem invoke_eq_prelude (host : Host β σ) (enter : Enter β σ) (ctx : Context) (f : Function β)
    (receiver : Option Object) (arguments : List Value) (w : World β σ) :
    ctx.invoke host enter f receiver arguments w =
      (ctx.prelude host f receiver arguments w).finish enter f := by
  unfold invoke prelude
  cases f.bindArguments w.store arguments with
  | error e => rfl
  | ok bound =>
    simp only
    split
    · rfl
    · cases f.body with
      | native code => rfl
      | interpreted code =>
        simp only
        generalize (defineParameters _ (f.parameters.zip bound)).run _ = defined
        rcases defined with ⟨_ | _,store⟩
        · rfl
        · simp only
          split <;> rfl

theorem keeps_defineParameters {γ : Type} (part : Store β → γ)
    (apart : ∀ store scope f, part (store.modifyFrame scope f) = part store) (scope : Scope)
    (bindings : List (Parameter × Value)) : (defineParameters scope bindings).Keeps part := by
  induction bindings with
  | nil => exact fun _ => rfl
  | cons binding rest ih => exact (Scope.keeps_define apart scope _ _ _ _).bind fun _ => ih

theorem registries_prelude (host : Host β σ) (ctx : Context) (f : Function β)
    (receiver : Option Object) (arguments : List Value) (w : World β σ) :
    (ctx.prelude host f receiver arguments w).world.store.registries = w.store.registries := by
  unfold prelude
  cases f.bindArguments w.store arguments with
  | error e => rfl
  | ok bound =>
    simp only
    split
    · rfl
    · cases f.body with
      | native code => rfl
      | interpreted code =>
        have kept := keeps_defineParameters Store.registries (fun _ _ _ => rfl)
          (ctx.callee (receiverFor f.kind receiver) w.store).1.scope (f.parameters.zip bound)
          (ctx.callee (receiverFor f.kind receiver) w.store).2
        simp only
        generalize (defineParameters _ (f.parameters.zip bound)).run _ = defined at kept ⊢
        rcases defined with ⟨_ | _,store⟩
        · exact kept
        · simp only
          split <;> exact kept

end Context

namespace Registrations

theorem find?_add (r : Registrations) (h key : Handle) (o : Object) :
    find? key (r.add h o) = (find? key r).or (if key = h then some o else none) := by
  unfold add
  cases taken : find? h r with
  | some other =>
    by_cases same : key = h
    · simp [same,taken]
    · simp [same]
  | none =>
    by_cases same : key = h
    · simp [find?,same,taken]
    · simp [find?,same,Ne.symm same]

end Registrations

namespace Registry

def Holds (r : Registry) (store : Store β) (h : Handle) : Prop := ∃ o, r.lookup store h = .ok o

theorem holds_iff {r : Registry} {store : Store β} {h : Handle} :
    r.Holds store h ↔ (Registrations.find? h (store.registered r)).isSome := by
  unfold Holds lookup
  cases Registrations.find? h (store.registered r) <;> simp

theorem registered_register {r : Registry} {o : Object} {store : Store β}
    (present : r.index < store.registries.size) (fresh : (store.object o).handle = none) :
    (r.register o store).2.registered r = (store.registered r).add ⟨store.nextHandle⟩ o := by
  unfold register Object.drawHandle
  rw [fresh]
  exact Arena.get_modify_self present _

end Registry

theorem ClassId.unregistered_of_instantiate {c : ClassId} {scope : Scope} {store later : Store β}
    {o : Object} (made : (c.instantiate scope).run store = (.ok o,later)) :
    (later.object o).handle = none ∧ later.registries = store.registries ∧
      later.nextHandle = store.nextHandle := by
  obtain ⟨hierarchy,members,_,_,added⟩ := ClassId.eq_addObject_of_instantiate made
  obtain ⟨rfl,rfl⟩ := Prod.mk.inj added
  refine ⟨?_,rfl,rfl⟩
  exact congrArg Instance.handle (Store.object_addObject_self _ _)

namespace Context

variable {host : Host β σ} {ctx : Context} {className : String} {arguments : List Value}
  {w after : World β σ} {e : Error}

theorem registered_newObject {store : Store β} {o : Object}
    (present : ctx.runtime.registry.index < store.registries.size)
    (made : ((ctx.newObject className).run store).1 = .ok o) :
    ((ctx.newObject className).run store).2.registered ctx.runtime.registry =
      (store.registered ctx.runtime.registry).add ⟨store.nextHandle⟩ o := by
  cases found : ctx.scope.lookupClass store className with
  | error missing => simp [run_newObject_of_missing found] at made
  | ok c =>
    simp only [run_newObject_of_found found,Action.run_bind,Action.run_update,Action.run_pure]
      at made ⊢
    rcases instantiated : (c.instantiate ctx.scope).run store with ⟨_ | it,next⟩ <;>
      simp only [instantiated] at made ⊢
    · contradiction
    · obtain rfl := Except.ok.inj made
      obtain ⟨fresh,registries,next⟩ := ClassId.unregistered_of_instantiate instantiated
      rw [Registry.registered_register (registries ▸ present) fresh,next]
      exact congrArg (fun all : Arena Registrations =>
        (all.get ctx.runtime.registry.index).add ⟨store.nextHandle⟩ it) registries

theorem registries_newObject_error {store : Store β}
    (failed : ((ctx.newObject className).run store).1 = .error e) :
    ((ctx.newObject className).run store).2.registries = store.registries := by
  cases found : ctx.scope.lookupClass store className with
  | error missing => rw [run_newObject_of_missing found]
  | ok c =>
    rw [store_of_newObject_error found failed]
    rfl

/-- A construction that fails short of the body fails so with any body, and has registered what
the making of its instance has. -/
theorem construct_never
    (unentered : ctx.construct host .never className arguments w = some (.error e,after)) :
    (∀ enter, ctx.construct host enter className arguments w = some (.error e,after)) ∧
      after.store.registries = ((ctx.newObject className).run w.store).2.registries := by
  simp only [construct,World.run_onStore] at unentered ⊢
  rcases made : (ctx.newObject className).run w.store with ⟨fault | o,store⟩ <;>
    simp only [made] at unentered ⊢
  · cases unentered
    exact ⟨fun _ => rfl,rfl⟩
  · cases constructed : (store.definitionOf o).constructor? with
    | some f =>
      simp only [constructed,invoke_eq_prelude] at unentered ⊢
      have registries := registries_prelude host ctx f (some o) arguments { w with store }
      generalize ctx.prelude host f (some o) arguments { w with store } = prelude
        at unentered registries ⊢
      cases prelude with
      | stopped stop left =>
        simp only [Prelude.finish] at unentered
        cases unentered
        exact ⟨fun _ => rfl,registries⟩
      | entered inner p left => contradiction
    | none =>
      simp only [constructed] at unentered ⊢
      split at unentered
      · simp at unentered
      next given =>
        cases unentered
        exact ⟨fun _ => if_neg given,rfl⟩

end Context

/-- A construction that fails short of the body fails so with any body. It leaves the registry with
the handles it had exactly if the class was not found or has no order, as the instance is registered
before anything else is looked at; otherwise the next handle has gone to the instance, and is a new
one unless the handles have come round. -/
theorem unentered_construct_handles {host : Host β σ} {ctx : Context} {className : String}
    {arguments : List Value} {w after : World β σ} {e : Error}
    (present : ctx.runtime.registry.index < w.store.registries.size)
    (unentered : ctx.construct host .never className arguments w = some (.error e,after)) :
    (∀ enter, ctx.construct host enter className arguments w = some (.error e,after)) ∧
    (∀ o, ((ctx.newObject className).run w.store).1 = .ok o →
      after.store.registered ctx.runtime.registry =
        (w.store.registered ctx.runtime.registry).add ⟨w.store.nextHandle⟩ o) ∧
    ((∀ h, ctx.runtime.registry.Holds after.store h ↔ ctx.runtime.registry.Holds w.store h) ↔
      (∃ fault, ((ctx.newObject className).run w.store).1 = .error fault) ∨
        ctx.runtime.registry.Holds w.store ⟨w.store.nextHandle⟩) := by
  obtain ⟨anyhow,registries⟩ := Context.construct_never unentered
  have left : after.store.registered ctx.runtime.registry =
      ((ctx.newObject className).run w.store).2.registered ctx.runtime.registry :=
    congrArg (·.get ctx.runtime.registry.index) registries
  have added : ∀ o, ((ctx.newObject className).run w.store).1 = .ok o →
      after.store.registered ctx.runtime.registry =
        (w.store.registered ctx.runtime.registry).add ⟨w.store.nextHandle⟩ o :=
    fun o made => left.trans (Context.registered_newObject present made)
  refine ⟨anyhow,added,?_⟩
  simp only [Registry.holds_iff]
  cases made : ((ctx.newObject className).run w.store).1 with
  | error fault =>
    have same : after.store.registered ctx.runtime.registry =
        w.store.registered ctx.runtime.registry :=
      left.trans (congrArg (·.get ctx.runtime.registry.index)
        (Context.registries_newObject_error made))
    exact iff_of_true (fun h => by rw [same]) (.inl ⟨fault,rfl⟩)
  | ok o =>
    simp only [added o made,Registrations.find?_add]
    constructor
    · intro same
      exact .inr ((same ⟨w.store.nextHandle⟩).mp (by simp))
    · rintro (⟨fault,missing⟩ | held) h
      · contradiction
      · by_cases next : h = ⟨w.store.nextHandle⟩
        · subst next
          simp [held]
        · simp [next]

/-! A class without a constructor. -/
namespace Orphan

def world : World Unit Unit :=
  (Move.ask Runtime.first.globalContext
    (.defineClass { name := "E", modulePath := "m" })).perform .idle .first

def after : World Unit Unit :=
  ⟨((Runtime.first.globalContext.newObject "E").run world.store).2,()⟩

end Orphan

theorem unentered_construct_handles_orphan :
    Runtime.first.registry.index < Orphan.world.store.registries.size ∧
    Orphan.after.store.registered Runtime.first.registry = [(⟨1⟩,⟨0⟩)] ∧
    ¬∀ h, Runtime.first.registry.Holds Orphan.after.store h ↔
      Runtime.first.registry.Holds Orphan.world.store h := by
  have present : Runtime.first.registry.index < Orphan.world.store.registries.size := by decide
  have failed : Runtime.first.globalContext.construct .idle .never "E" [.integer 1] Orphan.world =
      some (.error (.arityMismatch "E" 0 1 false),Orphan.after) := rfl
  obtain ⟨_,added,kept⟩ := unentered_construct_handles present failed
  refine ⟨present,added ⟨0⟩ rfl,fun same => ?_⟩
  rcases kept.mp same with ⟨fault,missing⟩ | held
  · contradiction
  · rw [Registry.holds_iff] at held
    contradiction

theorem failed_construct_leaves_handle :
    World.Reaches .idle (fun _ _ => True) .first Orphan.world ∧
    (∀ enter, Runtime.first.globalContext.construct .idle enter "E" [.integer 1] Orphan.world =
      some (.error (.arityMismatch "E" 0 1 false),Orphan.after)) ∧
    Runtime.first.registry.lookup Orphan.world.store ⟨1⟩ =
      .error (.notFound .registeredObject "1") ∧
    Runtime.first.registry.lookup Orphan.after.store ⟨1⟩ = .ok ⟨0⟩ :=
  ⟨.move .start trivial,fun _ => rfl,rfl,rfl⟩

end ObjectModel
