import ObjectModel.Proofs.Alteration

/-! What requests do to a store. Every request comes down to elementary changes and one dealing with
a registry at most, and each has a licence for them. Whatever fails leaves the changes that it had
come to. -/
namespace ObjectModel

variable {β σ : Type}

/-- Changes, and then a dealing if there is one. -/
def Acts (l : Licence β) (dealing : Option Dealing) (store later : Store β) : Prop :=
  ∃ between, Alters l store between ∧ Deals between dealing later

section

variable {l : Licence β} {store later : Store β}

theorem Alters.acts (alters : Alters l store later) : Acts l none store later :=
  ⟨later,alters,.rest⟩

theorem Acts.alters {dealing : Option Dealing} (acts : Acts l dealing store later)
    (allowed : ∀ d, dealing = some d → l.deals d) : Alters l store later := by
  obtain ⟨between,alters,deals⟩ := acts
  cases dealing with
  | none =>
    cases deals
    exact alters
  | some d => exact alters.tail (.deal (allowed d rfl) deals)

namespace Scope

theorem alters_defineVariable {scope : Scope} {v : Variable} (here : l.writes scope)
    (brought : l.brings v) : Alters l store ((scope.defineVariable v).run store).2 := by
  simp only [defineVariable,Action.run_bind,Action.run_get]
  split
  · exact .refl
  next free =>
    have free : (store.frame scope).bindings.get? v.name = none := by
      simpa [definesHere,Table.contains] using free
    exact .single (.bind here brought free)

theorem alters_define {scope : Scope} {name : String} {type : TypeName} {value : Value}
    {locked : Bool} (here : l.writes scope)
    (brought : ∀ made, Variable.create store name type value = .ok made →
      l.brings { made with locked }) :
    Alters l store ((scope.define name type value locked).run store).2 := by
  rw [define,Action.run_bind,Action.run_read]
  cases made : Variable.create store name type value with
  | error e => exact .refl
  | ok v => exact alters_defineVariable here (brought v made)

theorem alters_assign {scope : Scope} {name : String} (value : Value)
    (assigning : ∀ owner, scope.owner? store name = some owner → l.assigns (.scope owner) name) :
    Alters l store ((scope.assign name value).run store).2 := by
  simp only [assign,Action.run_bind,Action.run_get]
  cases nearest : scope.owner? store name with
  | none => exact .refl
  | some owner =>
    simp only
    cases held : (store.frame owner).bindings.get? name with
    | none => exact .refl
    | some v =>
      simp only [Action.run_bind,Action.run_ofExcept]
      cases assigned : v.assign store value with
      | error e => exact .refl
      | ok next => exact .single (.assign (assigning owner nearest) held assigned)

theorem alters_defineFunction {scope : Scope} {f : Function β} (here : l.writes scope) :
    Alters l store ((scope.defineFunction f).run store).2 := by
  simp only [defineFunction,Action.run_bind,Action.run_get]
  split
  · exact .refl
  · exact .single (.define here)

theorem alters_defineClass {scope : Scope} {c : Class β} (here : l.writes scope)
    (introduced : l.introduces c) (brought : ∀ v, c.Holds v → l.brings v) :
    Alters l store ((scope.defineClass c).run store).2 := by
  rw [store_defineClass]
  split
  next free => exact .single (.adopt here introduced brought free)
  next => exact .refl

end Scope

namespace ClassId

/-- The members of a new instance are copies of what classes declare. -/
theorem layout_origin {scope : Scope} {c : ClassId} {entries : List String}
    {members result : Table Variable} (laid : layout store scope c entries members = .ok result) :
    ∀ v ∈ result.values, v ∈ members.values ∨ ∃ d, (store.classOf d).Holds v := by
  induction entries generalizing members with
  | nil =>
    obtain rfl := Except.ok.inj laid
    exact fun v held => .inl held
  | cons entry rest ih =>
    rw [layout] at laid
    intro v held
    simp only at laid
    split at laid
    · contradiction
    next d _ =>
      rcases ih laid v held with added | declared
      · split at added
        · rcases Table.mem_values_merge added with earlier | own
          · rcases Table.mem_values_merge earlier with old | shown
            · exact .inl old
            · exact .inr ⟨d,.inl shown⟩
          · exact .inr ⟨c,.inr (.inl own)⟩
        · rcases Table.mem_values_merge added with old | shown
          · exact .inl old
          · exact .inr ⟨d,.inl shown⟩
      · exact .inr declared

/-- A linearization adds to the memo, and the order it comes to is recorded. -/
theorem linearization_extends (c : ClassId) (scope : Scope) (store : Store β) :
    store.memo.Extends ((c.linearization scope).run store).2.memo ∧
      ∀ order, ((c.linearization scope).run store).1 = .ok order →
        ((c.linearization scope).run store).2.memo.get? c = some order := by
  have met : ∀ name d, scope.lookupClass store name = .ok d → (fun _ => True) d :=
    fun _ _ _ => trivial
  obtain ⟨steps,known⟩ := linearization_records met c trivial
  exact ⟨records_extends steps,known⟩

theorem alters_linearization {c : ClassId} {scope : Scope}
    (recorded : l.records ((c.linearization scope).run store).2.memo) :
    Alters l store ((c.linearization scope).run store).2 :=
  .single (.record recorded (c.linearization_extends scope store).1)

theorem alters_instantiate {c : ClassId} {scope : Scope} (made : l.makes c)
    (recorded : l.records ((c.linearization scope).run store).2.memo) :
    Alters l store ((c.instantiate scope).run store).2 := by
  have ordered : Alters l store ((c.linearization scope).run store).2 :=
    alters_linearization recorded
  rw [store_instantiate]
  cases success : ((c.linearization scope).run store).1 with
  | error e => exact ordered
  | ok hierarchy =>
    simp only
    cases laid : layout ((c.linearization scope).run store).2 scope c hierarchy.reverse .empty with
    | error e => exact ordered
    | ok members =>
      refine ordered.tail (.create ⟨made,rfl,fun _ _ => ?_,fun v held => ?_⟩)
      · exact (c.linearization_extends scope store).2 hierarchy success
      · rcases layout_origin laid v held with none | declared
        · exact absurd none List.not_mem_nil
        · exact declared

theorem alters_detached {c : ClassId} (made : l.makes c) :
    Alters l store ((c.detached).run store).2 := by
  refine .single (.create ⟨made,rfl,nofun,fun v held => ⟨c,?_⟩⟩)
  rcases Table.mem_values_merge held with earlier | own
  · rcases Table.mem_values_merge earlier with none | shown
    · exact absurd none List.not_mem_nil
    · exact .inl shown
  · exact .inr (.inl own)

end ClassId

namespace Object

theorem run_setMember (o : Object) (name : String) (value : Value) (caller : Caller)
    (store : Store β) :
    (o.setMember name value caller).run store =
      match o.member store name caller with
      | .error e => (.error e,store)
      | .ok (place,v) =>
        match v.assign store value with
        | .error e => (.error e,store)
        | .ok next => (.ok (),o.putMember name next store place) := by
  simp only [setMember,Action.run_bind,Action.run_get,Action.run_ofExcept]
  cases o.member store name caller with
  | error e => rfl
  | ok found =>
    obtain ⟨place,v⟩ := found
    simp only
    cases v.assign store value <;> rfl

theorem alters_setMember {o : Object} {name : String} (value : Value) {caller : Caller}
    (assigning : ∀ place v, o.member store name caller = .ok (place,v) →
      l.assigns (o.seat store place) name) :
    Alters l store ((o.setMember name value caller).run store).2 := by
  rw [run_setMember]
  rcases found : o.member store name caller with _ | ⟨place,v⟩
  · exact .refl
  · simp only
    cases assigned : v.assign store value with
    | error e => exact .refl
    | ok next => exact .single (.setMember (assigning place v found) found assigned)

theorem alters_takeHostData (o : Object) (kind : String) :
    Alters l store (o.takeHostData kind store).2 := by
  unfold takeHostData
  split
  · exact .refl
  · split
    · exact .single (.attach o none)
    · exact .refl

end Object

end

namespace Request

def Brings (store : Store β) : Request β → Variable → Prop
  | .define name type value locked, v =>
    ∃ made, Variable.create store name type value = .ok made ∧ v = { made with locked }
  | .defineVariable given, v => v = given
  | .defineClass c, v | .makeClass c, v => c.Holds v
  | _, _ => False

def Introduces : Request β → Class β → Prop
  | .defineClass c, added | .makeClass c, added => added = c
  | _, _ => False

def Writes (ctx : Context) : Request β → Scope → Prop
  | .define .., scope | .defineVariable .., scope | .defineFunction .., scope
  | .defineClass .., scope => scope = ctx.scope
  | _, _ => False

def Clears (ctx : Context) : Request β → Scope → Prop
  | .clearScope, scope => scope = ctx.scope
  | .shutdown, scope => scope = ctx.runtime.global
  | _, _ => False

/-- The variable that a request would assign: the nearest one of its name, or the member as far as
the caller may use it. -/
def target? (ctx : Context) (store : Store β) : Request β → Option (Seat × String)
  | .assign name _ => (ctx.scope.owner? store name).map fun owner => (.scope owner,name)
  | .setMember o name _ caller =>
    match o.member store name caller with
    | .ok (place,_) => some (o.seat store place,name)
    | .error _ => none
  | _ => none

def Makes (ctx : Context) (store : Store β) : Request β → ClassId → Prop
  | .instantiate c, d | .detach c, d => d = c
  | .newObject name, d => ctx.scope.lookupClass store name = .ok d
  | _, _ => False

/-- The dealing of a request. To make an object of a named class enters it under a handle of its
own. -/
def dealing? (ctx : Context) (store : Store β) : Request β → Option Dealing
  | .register o => some (.enter ctx.runtime.registry o (ctx.runtime.registry.register o store).1)
  | .newObject name =>
    match (ctx.newObject name).run store with
    | (.ok o,later) => (later.object o).handle.map (.enter ctx.runtime.registry o)
    | (.error _,_) => none
  | .release h => some (.release ctx.runtime.registry h)
  | .clearRegistry | .shutdown => some (.clear ctx.runtime.registry)
  | _ => none

def licence (ctx : Context) (store : Store β) (request : Request β) : Licence β where
  brings := request.Brings store
  introduces := request.Introduces
  writes := request.Writes ctx
  clears := request.Clears ctx
  assigns seat name := request.target? ctx store = some (seat,name)
  makes := request.Makes ctx store
  records memo := ∃ c scope, request.linearizes? ctx store = some c ∧
    memo = ((c.linearization scope).run store).2.memo
  deals dealing := request.dealing? ctx store = some dealing

end Request

theorem Context.acts_newObject (ctx : Context) (name : String) (store : Store β)
    (deals : Dealing → Prop) :
    Acts { Request.licence ctx store (.newObject name) with deals }
      (Request.dealing? ctx store (.newObject name)) store
      ((ctx.newObject name).run store).2 := by
  simp only [Request.dealing?]
  cases found : ctx.scope.lookupClass store name with
  | error e =>
    rw [run_newObject_of_missing found]
    exact Alters.acts .refl
  | ok c =>
    have asked : Request.linearizes? ctx store (.newObject name) = some c := by
      simp [Request.linearizes?,found,Except.toOption]
    have alters : Alters { Request.licence ctx store (.newObject name) with deals } store
        ((c.instantiate ctx.scope).run store).2 :=
      ClassId.alters_instantiate found ⟨c,ctx.scope,asked,rfl⟩
    simp only [run_newObject_of_found found,Action.run_bind,Action.run_update,Action.run_pure]
    rcases instantiated : (c.instantiate ctx.scope).run store with ⟨_ | o,next⟩ <;>
      rw [instantiated] at alters
    · exact alters.acts
    · have made := ClassId.lt_size_of_instantiate instantiated
      simp only [Registry.handle_register made,Option.map_some]
      exact ⟨next,alters,.enter ctx.runtime.registry o⟩

namespace Request

/-- Whatever a request does to the store, failing or not, is a series of elementary changes and its
dealing. -/
theorem acts (host : Host β σ) (ctx : Context) (request : Request β) (w : World β σ)
    (deals : Dealing → Prop) :
    Acts { request.licence ctx w.store with deals } (request.dealing? ctx w.store) w.store
      ((request.perform host ctx).run w).2.store := by
  cases request with
  | define name type value locked =>
    exact Alters.acts (Scope.alters_define rfl fun made created => ⟨made,created,rfl⟩)
  | defineVariable v => exact Alters.acts (Scope.alters_defineVariable rfl rfl)
  | assign name value =>
    refine Alters.acts (Scope.alters_assign value fun owner nearest => ?_)
    simp [licence,target?,nearest]
  | clearScope => exact Alters.acts (.single (.clear rfl))
  | defineFunction f => exact Alters.acts (Scope.alters_defineFunction rfl)
  | defineClass c => exact Alters.acts (Scope.alters_defineClass rfl rfl fun _ held => held)
  | makeClass c => exact Alters.acts (.single (.make rfl fun _ held => held))
  | linearize c => exact Alters.acts (ClassId.alters_linearization ⟨c,ctx.scope,rfl,rfl⟩)
  | setParents c parents => exact Alters.acts (.single (.reparent c parents))
  | resolve c name caller =>
    have stored : ((perform host ctx (.resolve c name caller)).run w).2.store =
        ((c.linearization ctx.scope).run w.store).2 :=
      ClassId.store_resolve host.supply c ctx.scope name caller w
    rw [stored]
    exact Alters.acts (ClassId.alters_linearization ⟨c,ctx.scope,rfl,rfl⟩)
  | dispatch o name caller => exact Alters.acts .refl
  | newObject name => exact ctx.acts_newObject name w.store deals
  | instantiate c => exact Alters.acts (ClassId.alters_instantiate rfl ⟨c,ctx.scope,rfl,rfl⟩)
  | detach c => exact Alters.acts (ClassId.alters_detached rfl)
  | setMember o name value caller =>
    refine Alters.acts (Object.alters_setMember value fun place v found => ?_)
    simp [licence,target?,found]
  | register o => exact ⟨_,.refl,.enter _ o⟩
  | release h => exact ⟨_,.refl,.release _ h⟩
  | clearRegistry => exact ⟨_,.refl,.clear _⟩
  | shutdown =>
    -- The registry is cleared first, but the two do not meet.
    exact ⟨_,.single (.clear rfl),.clear _⟩
  | setHostData o data => exact Alters.acts (.single (.attach o (some data)))
  | takeHostData o kind => exact (o.alters_takeHostData kind).acts

theorem alters (host : Host β σ) (ctx : Context) (request : Request β) (w : World β σ) :
    Alters (request.licence ctx w.store) w.store ((request.perform host ctx).run w).2.store :=
  (request.acts host ctx w _).alters fun _ same => same

end Request
end ObjectModel
