import ObjectModel.Proofs.Course
import ObjectModel.Proofs.Membership

/-! Typed storage. A variable that a store holds was there before the last change, was brought in
by it, or is one of before with a value assigned. All three fit their declared types if variables
are only ever made by casts, and what fits goes on fitting; so in every store that can be reached
all values fit the types they are declared with. -/
namespace ObjectModel

variable {β σ : Type}

def Store.Holds (store : Store β) (v : Variable) : Prop :=
  (∃ scope, v ∈ (store.frame scope).bindings.values) ∨ (∃ c, (store.classOf c).Holds v) ∨
    ∃ o, v ∈ (store.object o).members.values

namespace Variable

def Fits (v : Variable) (store : Store β) : Prop := v.value.Fits store v.type

theorem fits_of_create {store : Store β} {name : String} {type : TypeName} {value : Value}
    {v : Variable} (made : create store name type value = .ok v) : v.Fits store := by
  unfold create at made
  split at made
  next fitted cast =>
    obtain rfl := Except.ok.inj made
    exact Value.fits_of_cast cast
  next => contradiction

theorem fits_of_assign {store : Store β} {v next : Variable} {value : Value}
    (assigned : v.assign store value = .ok next) : next.Fits store := by
  obtain ⟨_,fitted,cast,rfl⟩ := assign_eq_ok_iff.mp assigned
  exact Value.fits_of_cast cast

/-- The variables that can be at hand when some stores are passed: made by a cast or without a
type, given a lock, a visibility or lines of documentation, assigned, or read from a store. -/
inductive Built (past : List (Store β)) : Variable → Prop where
  | create {store : Store β} {name : String} {type : TypeName} {value : Value} {v : Variable}
      (seen : store ∈ past) (made : Variable.create store name type value = .ok v) : Built past v
  | dynamic (name : String) (value : Value) : Built past (.dynamic name value)
  | lock {v : Variable} (built : Built past v) : Built past v.lock
  | expose {v : Variable} (built : Built past v) (visibility : Visibility) :
      Built past { v with visibility }
  | document {v : Variable} (built : Built past v) (lines : List String) :
      Built past (v.document lines)
  | assign {store : Store β} {v next : Variable} {value : Value} (seen : store ∈ past)
      (built : Built past v) (assigned : v.assign store value = .ok next) : Built past next
  | read {store : Store β} {v : Variable} (seen : store ∈ past) (held : store.Holds v) :
      Built past v

/-- Where the variables after a change come from. -/
inductive Stems (brings : Variable → Prop) (store : Store β) : Variable → Prop where
  | held {v : Variable} (held : store.Holds v) : Stems brings store v
  | brought {v : Variable} (brought : brings v) : Stems brings store v
  | assigned {v next : Variable} {value : Value} (held : store.Holds v)
      (assigned : v.assign store value = .ok next) : Stems brings store next

end Variable

section

variable {l : Licence β} {store : Store β} {v : Variable}

theorem Table.Updates.stems {binds brings : Variable → Prop} {assigns : String → Prop}
    {t later : Table Variable} (updates : t.Updates binds assigns store later)
    (bring : ∀ u, binds u → brings u)
    (holds : ∀ u ∈ t.values, store.Holds u) (member : v ∈ later.values) :
    v.Stems brings store := by
  cases updates with
  | same => exact .held (holds v member)
  | bind bound =>
    rcases mem_values_insert member with rfl | old
    · exact .brought (bring _ bound)
    · exact .held (holds v old)
  | assign _ held assigned =>
    rcases mem_values_insert member with rfl | old
    · exact .assigned (holds _ (mem_values_of_get? held)) assigned
    · exact .held (holds v old)

theorem Alteration.stems {later : Store β} (alteration : Alteration l store later)
    (held : later.Holds v) : v.Stems l.brings store := by
  rcases held with ⟨scope,bound⟩ | ⟨c,declared⟩ | ⟨o,owned⟩
  · rcases alteration.bindings scope with updates | ⟨_,empty⟩
    · exact updates.stems (fun _ => id) (fun u member => .inl ⟨scope,member⟩) bound
    · rw [empty] at bound
      exact absurd bound List.not_mem_nil
  · rcases alteration.classOf c with ⟨_,_,same,updates⟩ | ⟨_,_,brought⟩
    · rw [same] at declared
      rcases declared with member | member | member
      · exact .held (.inr (.inl ⟨c,.inl member⟩))
      · exact .held (.inr (.inl ⟨c,.inr (.inl member)⟩))
      · exact updates.stems nofun (fun u old => .inr (.inl ⟨c,.inr (.inr old)⟩)) member
    · exact .brought (brought v declared)
  · rcases alteration.object o with lasts | ⟨_,fresh⟩
    · exact lasts.members.stems nofun (fun u member => .inr (.inr ⟨o,member⟩)) owned
    · exact .held (.inr (.inl (fresh.copied v owned)))

end

namespace Store

/-- Scopes name classes properly, and every variable fits its declared type. -/
structure Typed (store : Store β) : Prop where
  labelled : store.Labelled
  fits : ∀ v, store.Holds v → v.Fits store

theorem typed_empty : (empty : Store β).Typed where
  labelled _ _ _ bound := nomatch bound
  fits v held := by
    rcases held with ⟨_,bound⟩ | ⟨_,shown | hidden | shared⟩ | ⟨_,owned⟩
    · exact absurd bound List.not_mem_nil
    · exact absurd shown List.not_mem_nil
    · exact absurd hidden List.not_mem_nil
    · exact absurd shared List.not_mem_nil
    · exact absurd owned List.not_mem_nil

end Store

section

variable {l : Licence β} {store later : Store β}

/-- A change that brings in variables that fit leaves all variables fitting. -/
theorem Alteration.typed (alteration : Alteration l store later)
    (typed : store.Typed) (fit : ∀ v, l.brings v → v.Fits store) : later.Typed where
  labelled := alteration.labelled typed.labelled
  fits v held := by
    have before : v.Fits store := by
      cases alteration.stems held with
      | held held => exact typed.fits v held
      | brought brought => exact fit v brought
      | assigned _ assigned => exact Variable.fits_of_assign assigned
    exact Value.Fits.persists before typed.labelled alteration.persists

theorem Alters.typed (alters : Alters l store later) (typed : store.Typed)
    (fit : ∀ v, l.brings v → v.Fits store) : later.Typed ∧ store.Persists later := by
  induction alters with
  | refl => exact ⟨typed,.refl store⟩
  | tail _ alteration ih =>
    obtain ⟨middle,persists⟩ := ih
    -- What is brought in was built for the store at the start and may be put in place only now.
    have still : ∀ v, l.brings v → v.Fits _ :=
      fun v brought => Value.Fits.persists (fit v brought) typed.labelled persists
    exact ⟨alteration.typed middle still,persists.trans alteration.persists⟩

end

/-- The stores passed and the present one are typed, and no instance has changed its hierarchy. -/
def Store.Consistent (past : List (Store β)) (store : Store β) : Prop :=
  ∀ old ∈ store :: past, old.Typed ∧ old.Persists store

/-- Whatever was at hand at some time fits its type now. -/
theorem Variable.Built.fits {past : List (Store β)} {store : Store β} {v : Variable}
    (consistent : store.Consistent past) (built : v.Built (store :: past)) : v.Fits store := by
  have since : ∀ old ∈ store :: past, ∀ u : Variable, u.Fits old → u.Fits store := by
    intro old seen u fits
    obtain ⟨typed,persists⟩ := consistent old seen
    exact Value.Fits.persists fits typed.labelled persists
  induction built with
  | create seen made => exact since _ seen _ (fits_of_create made)
  | dynamic name value => cases value <;> rfl
  | lock _ ih | expose _ _ ih | document _ _ ih => exact ih
  | assign seen _ assigned => exact since _ seen _ (fits_of_assign assigned)
  | read seen held => exact since _ seen _ ((consistent _ seen).1.fits _ held)

def Request.Built (past : List (Store β)) : Request β → Prop
  | .defineVariable v => v.Built past
  | .defineClass c | .makeClass c => ∀ v, c.Holds v → v.Built past
  | _ => True

def Event.Built (past : List (Store β)) : Event β σ → Prop
  | .move (.ask _ request) => request.Built past
  | _ => True

theorem Event.Built.fits {past : List (Store β)} {store : Store β} {e : Event β σ} {v : Variable}
    (consistent : store.Consistent past) (built : e.Built (store :: past))
    (brought : e.Brings store v) : v.Fits store := by
  cases e with
  | move m =>
    cases m with
    | enter outer => exact False.elim brought
    | ask ctx request =>
      cases request with
      | define name type value locked =>
        obtain ⟨made,created,rfl⟩ := brought
        have fits : made.Fits store := Variable.fits_of_create created
        exact fits
      | defineVariable given =>
        obtain rfl : v = given := brought
        exact Variable.Built.fits consistent built
      | defineClass c | makeClass c => exact Variable.Built.fits consistent (built v brought)
      | _ => exact False.elim brought
  | _ => exact False.elim brought

theorem Event.consistent {host : Host β σ} {past : List (Store β)} {w : World β σ} {e : Event β σ}
    (consistent : w.store.Consistent past) (built : e.Built (w.store :: past)) :
    (e.perform host w).store.Consistent (w.store :: past) := by
  obtain ⟨typed,_⟩ := consistent w.store List.mem_cons_self
  obtain ⟨still,persists⟩ :=
    (e.alters host w).typed typed fun _ brought => built.fits consistent brought
  intro old seen
  rcases List.mem_cons.mp seen with rfl | before
  · exact ⟨still,.refl _⟩
  · obtain ⟨sound,kept⟩ := consistent old before
    exact ⟨sound,kept.trans persists⟩

theorem Context.fits_of_invoke {host : Host β σ} {enter : Enter β σ} {ctx : Context}
    {f : Function β} {receiver : Option Object} {arguments : List Value} {w after : World β σ}
    {v : Value} (returned : ctx.invoke host enter f receiver arguments w = some (.ok v,after)) :
    v.Fits after.store f.returnType := by
  rw [invoke_eq_prelude] at returned
  cases prelude : ctx.prelude host f receiver arguments w with
  | stopped e left =>
    rw [prelude] at returned
    simp [Prelude.finish] at returned
  | entered inner p left =>
    rw [prelude,Prelude.finish] at returned
    rcases ended : enter inner p left with _ | ⟨_ | raw,last⟩ <;> rw [ended] at returned
    · contradiction
    · simp [finish] at returned
    · obtain ⟨cast,rfl⟩ := Prod.mk.inj (Option.some.inj returned)
      exact Value.fits_of_cast cast

/-- Whatever is done from the empty store on, with variables that were built as such, every
variable of a scope, a class or an instance holds a value that casts to itself under the declared
type, and so does every result of an invocation under the declared type of the function. -/
theorem stored_values_fit {host : Host β σ} {state : σ} {past : List (Store β)} {w : World β σ}
    (attained : World.Attains host (fun past e => e.Built past) ⟨.empty,state⟩ past w) :
    (∀ v : Variable, w.store.Holds v → v.value.cast w.store v.type = .ok v.value) ∧
    ∀ (enter : Enter β σ) (ctx : Context) (f : Function β) (receiver : Option Object)
      (arguments : List Value) (u after : World β σ) (v : Value),
      ctx.invoke host enter f receiver arguments u = some (.ok v,after) →
        v.cast after.store f.returnType = .ok v := by
  have consistent : w.store.Consistent past := by
    refine attained.holds (fun past store => store.Consistent past)
      (fun _ _ _ before built => Event.consistent before built) ?_
    intro old seen
    obtain rfl := List.mem_singleton.mp seen
    exact ⟨Store.typed_empty,.refl _⟩
  refine ⟨?_,?_⟩
  · exact (consistent w.store List.mem_cons_self).1.fits
  · intro enter ctx f receiver arguments u after v returned
    exact Context.fits_of_invoke returned

/-! A variable of a class outlives the class: it is defined, a function assigns it, and then the
scope of the class is cleared. -/
namespace Keepsake

def host : Host Unit Unit where
  native _ _ _ := .ask (.assign "X" (.object ⟨0⟩)) fun _ => .done (.integer 7)
  evaluate _ _ _ _ := .done .nothing
  supply := Resolution.refuse

def outer : Context := Runtime.first.globalContext

def ctx : Context := { runtime := Runtime.first, scope := ⟨1⟩ }

def count : Variable := { name := "N", type := .integer, value := .integer 0 }

def definition : Class Unit :=
  ({ name := "P", modulePath := "m" } : Class Unit).declareVariable count

def function : Function Unit := { name := "F", returnType := .string, body := .native () }

def start : World Unit Unit := ⟨.empty,()⟩

def world : World Unit Unit :=
  start.replay host [.found defaultCallDepth false,.move (.enter outer.scope),
    .move (.ask outer (.defineClass definition)),.move (.ask ctx (.newObject "P")),
    .move (.ask ctx (.define "X" (.named "P") (.object ⟨0⟩) false)),
    .move (.ask ctx (.defineFunction function))]

def call : Call Unit := .invoke function none []

def later : World Unit Unit := Entry.replay host world (call.journal host 1 ctx world)

theorem returned : call.perform host (Program.run host 1) ctx world =
    (some (.ok (.string "7"),later),ctx) := rfl

def last : World Unit Unit := (Event.move (.ask outer .clearScope)).perform host later

theorem attained :
    ∃ past, World.Attains host (fun past e => e.Built past) start past last := by
  have built : ∀ past : List (Store Unit), start.store ∈ past →
      ∀ v, definition.Holds v → v.Built past := by
    rintro past seen v (shown | hidden | shared)
    · obtain rfl := List.mem_singleton.mp shown
      exact .create seen (rfl : Variable.create start.store "N" .integer .nothing = .ok count)
    · exact absurd hidden List.not_mem_nil
    · exact absurd shared List.not_mem_nil
  have before : World.Attains host (fun past e => e.Built past) start _ world :=
    .series .start ⟨trivial,trivial,built _ (by simp),trivial,trivial,trivial,trivial⟩
  exact ⟨_,.event (.call before returned ⟨trivial,trivial,trivial,trivial⟩) trivial⟩

end Keepsake

theorem stored_values_fit_keepsake :
    Keepsake.ctx.scope.lookupClass Keepsake.last.store "P" =
      .error (.notFound .classDefinition "P") ∧
    (Value.object ⟨0⟩).cast Keepsake.last.store (.named "P") = .ok (.object ⟨0⟩) ∧
    (Value.string "7").cast Keepsake.later.store .string = .ok (.string "7") := by
  obtain ⟨_,attained⟩ := Keepsake.attained
  obtain ⟨stored,given⟩ := stored_values_fit attained
  have held : Keepsake.last.store.Holds
      { name := "X", type := .named "P", value := .object ⟨0⟩ } :=
    .inl ⟨Keepsake.ctx.scope,List.mem_singleton.mpr rfl⟩
  refine ⟨rfl,stored _ held,?_⟩
  exact given (Program.run Keepsake.host 1) Keepsake.ctx Keepsake.function none [] Keepsake.world
    Keepsake.later _ (congrArg Prod.fst Keepsake.returned)

end ObjectModel
