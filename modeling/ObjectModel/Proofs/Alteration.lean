import ObjectModel.Proofs.Dealing
import ObjectModel.Proofs.Home

/-! Elementary changes of a store. There are a few kinds, and a licence says which of them may occur:
what variables and classes come in, where names are given and scopes emptied, which variables are
assigned, of which classes instances are made, what is recorded, and how registries are dealt with.
Invariants of stores are proved change by change. -/
namespace ObjectModel

variable {β : Type}

def Class.Holds (c : Class β) (v : Variable) : Prop :=
  v ∈ c.publicVariables.values ∨ v ∈ c.privateVariables.values ∨ v ∈ c.sharedVariables.values

theorem Variable.assign_eq_ok_iff {store : Store β} {v next : Variable} {value : Value} :
    v.assign store value = .ok next ↔
      v.locked = false ∧ ∃ fitted, value.cast store v.type = .ok fitted ∧
        next = { v with value := fitted } := by
  unfold assign prepare
  cases v.locked with
  | true => simp [Except.map]
  | false => cases value.cast store v.type <;> simp [Except.map,eq_comm]

def Object.table (o : Object) (store : Store β) : Object.Place → Table Variable
  | .own => (store.object o).members
  | .shared => (store.definitionOf o).sharedVariables

theorem Object.get?_of_member {o : Object} {store : Store β} {name : String} {caller : Caller}
    {place : Object.Place} {v : Variable} (found : o.member store name caller = .ok (place,v)) :
    (o.table store place).get? name = some v := by
  unfold member at found
  cases held : (store.object o).members.get? name with
  | some u =>
    simp only [held] at found
    split at found
    · obtain ⟨rfl,rfl⟩ := Prod.mk.inj (Except.ok.inj found)
      exact held
    · contradiction
  | none =>
    simp only [held] at found
    split at found
    next u shared =>
      obtain ⟨rfl,rfl⟩ := Prod.mk.inj (Except.ok.inj found)
      exact shared
    next => contradiction

inductive Seat where
  | scope (s : Scope)
  | shared (c : ClassId)
  | own (o : Object)
  deriving DecidableEq, Repr

def Seat.occupant? (seat : Seat) (store : Store β) (name : String) : Option Variable :=
  match seat with
  | .scope s => (store.frame s).bindings.get? name
  | .shared c => (store.classOf c).sharedVariables.get? name
  | .own o => (store.object o).members.get? name

def Object.seat (o : Object) (store : Store β) : Object.Place → Seat
  | .own => .own o
  | .shared => .shared (store.object o).definition

/-- What a series of changes may take and do. -/
structure Licence (β : Type) where
  brings : Variable → Prop
  introduces : Class β → Prop
  writes : Scope → Prop
  clears : Scope → Prop
  assigns : Seat → String → Prop
  makes : ClassId → Prop
  records : Memo → Prop
  deals : Dealing → Prop

/-- An instance as it is made: it has no handle, in a scope it takes the recorded order of its
class, and its members are copies of what classes declare. -/
structure Instance.Fresh (makes : ClassId → Prop) (store : Store β) (it : Instance) : Prop where
  made : makes it.definition
  unregistered : it.handle = none
  ordered : ∀ scope, it.scope = some scope → store.memo.get? it.definition = some it.hierarchy
  copied : ∀ v ∈ it.members.values, ∃ c, (store.classOf c).Holds v

inductive Alteration (l : Licence β) (store : Store β) : Store β → Prop where
  | enter (enclosing : List Scope) : Alteration l store (store.addFrame { enclosing }).2
  | bind {scope : Scope} {v : Variable} (here : l.writes scope) (brought : l.brings v)
      (free : (store.frame scope).bindings.get? v.name = none) :
      Alteration l store (store.modifyFrame scope fun frame =>
        { frame with bindings := frame.bindings.insert v.name v })
  | assign {scope : Scope} {name : String} {v next : Variable} {value : Value}
      (assigning : l.assigns (.scope scope) name)
      (held : (store.frame scope).bindings.get? name = some v)
      (assigned : v.assign store value = .ok next) :
      Alteration l store (store.modifyFrame scope fun frame =>
        { frame with bindings := frame.bindings.insert name next })
  | define {scope : Scope} {f : Function β} (here : l.writes scope) :
      Alteration l store (store.modifyFrame scope fun frame =>
        { frame with functions := frame.functions.insert f.name f })
  | adopt {scope : Scope} {c : Class β} (here : l.writes scope) (introduced : l.introduces c)
      (brought : ∀ v, c.Holds v → l.brings v) (free : scope.classConflict? store c = none) :
      Alteration l store (scope.adopt store c)
  | clear {scope : Scope} (cleared : l.clears scope) :
      Alteration l store (store.modifyFrame scope fun frame => { enclosing := frame.enclosing })
  | make {c : Class β} (introduced : l.introduces c) (brought : ∀ v, c.Holds v → l.brings v) :
      Alteration l store (store.addClass c).2
  | reparent (c : ClassId) (parents : List String) :
      Alteration l store (store.modifyClass c fun it => { it with parents })
  | record {memo : Memo} (recorded : l.records memo) (extended : store.memo.Extends memo) :
      Alteration l store { store with memo }
  | create {it : Instance} (fresh : it.Fresh l.makes store) :
      Alteration l store (store.addObject it).2
  | setMember {o : Object} {name : String} {caller : Caller} {place : Object.Place}
      {v next : Variable} {value : Value} (assigning : l.assigns (o.seat store place) name)
      (found : o.member store name caller = .ok (place,v))
      (assigned : v.assign store value = .ok next) :
      Alteration l store (o.putMember name next store place)
  | attach (o : Object) (hostData : Option HostData) :
      Alteration l store (store.modifyObject o fun it => { it with hostData })
  | furnish : Alteration l store store.addRegistry.2
  | deal {dealing : Dealing} {later : Store β} (dealt : l.deals dealing)
      (deals : Deals store (some dealing) later) : Alteration l store later

abbrev Alters (l : Licence β) : Store β → Store β → Prop := Relation.ReflTransGen (Alteration l)

/-- What a change does to a table of variables: it leaves it, or puts a variable under a new name,
or assigns one that is there. -/
inductive Table.Updates (binds : Variable → Prop) (assigns : String → Prop) (store : Store β)
    (t : Table Variable) : Table Variable → Prop where
  | same : Updates binds assigns store t t
  | bind {v : Variable} (bound : binds v) (free : t.get? v.name = none) :
      Updates binds assigns store t (t.insert v.name v)
  | assign {name : String} {v next : Variable} {value : Value} (assigning : assigns name)
      (held : t.get? name = some v) (assigned : v.assign store value = .ok next) :
      Updates binds assigns store t (t.insert name next)

theorem Table.get?_insert_of_free {t : Table Variable} {name other : String} {v : Variable}
    (held : t.get? name = some v) (free : t.get? other = none) (u : Variable) :
    (t.insert other u).get? name = some v := by
  have apart : name ≠ other := by
    rintro rfl
    rw [free] at held
    contradiction
  exact (get?_insert_of_ne apart t u).trans held

theorem Table.Updates.keeps {binds : Variable → Prop} {assigns : String → Prop} {store : Store β}
    {t later : Table Variable} {name : String} {v : Variable}
    (updates : t.Updates binds assigns store later) (held : t.get? name = some v)
    (unassigned : ¬assigns name) : later.get? name = some v := by
  cases updates with
  | same => exact held
  | bind bound free => exact get?_insert_of_free held free _
  | @assign other _ next _ assigning =>
    have apart : name ≠ other := fun same => unassigned (same ▸ assigning)
    exact (get?_insert_of_ne apart t next).trans held

structure Store.Grows (store later : Store β) : Prop where
  frames : store.frames.size ≤ later.frames.size
  classes : store.classes.size ≤ later.classes.size
  instances : store.instances.size ≤ later.instances.size
  registries : store.registries.size ≤ later.registries.size

theorem Store.Grows.refl (store : Store β) : store.Grows store :=
  ⟨Nat.le_refl _,Nat.le_refl _,Nat.le_refl _,Nat.le_refl _⟩

theorem Store.Grows.trans {first second third : Store β} (before : first.Grows second)
    (after : second.Grows third) : first.Grows third where
  frames := Nat.le_trans before.frames after.frames
  classes := Nat.le_trans before.classes after.classes
  instances := Nat.le_trans before.instances after.instances
  registries := Nat.le_trans before.registries after.registries

/-- What an instance keeps in a change. -/
structure Object.Lasts (l : Licence β) (o : Object) (store later : Store β) : Prop where
  present : o.index < later.instances.size → o.index < store.instances.size
  definition : (later.object o).definition = (store.object o).definition
  scope : (later.object o).scope = (store.object o).scope
  hierarchy : (later.object o).hierarchy = (store.object o).hierarchy
  members : (store.object o).members.Updates (fun _ => False) (l.assigns (.own o)) store
    (later.object o).members
  handle : (∀ dealing, ¬l.deals dealing) → (later.object o).handle = (store.object o).handle

theorem Object.lasts_of_eq {l : Licence β} {o : Object} {store later : Store β}
    (same : later.object o = store.object o)
    (present : o.index < later.instances.size → o.index < store.instances.size) :
    o.Lasts l store later := by
  refine ⟨present,?_,?_,?_,?_,fun _ => ?_⟩ <;> rw [same]
  exact .same

namespace Alteration

variable {l : Licence β} {store later : Store β}

theorem grows (alteration : Alteration l store later) : store.Grows later := by
  have same := Store.Grows.refl store
  have one : ∀ {n m : Nat}, m = n + 1 → n ≤ m := fun same => same ▸ Nat.le_succ _
  cases alteration with
  | enter => exact { same with frames := one (Arena.size_push ..) }
  | bind | assign | define | clear =>
    exact { same with frames := Nat.le_of_eq (Arena.size_modify ..).symm }
  | adopt =>
    exact { same with
      frames := Nat.le_of_eq (Scope.frames_adopt ..).symm
      classes := one (Scope.size_adopt ..) }
  | make => exact { same with classes := one (Arena.size_push ..) }
  | reparent => exact { same with classes := Nat.le_of_eq (Arena.size_modify ..).symm }
  | record => exact { same with }
  | create => exact { same with instances := one (Arena.size_push ..) }
  | @setMember _ _ _ place =>
    cases place with
    | own => exact { same with instances := Nat.le_of_eq (Arena.size_modify ..).symm }
    | shared => exact { same with classes := Nat.le_of_eq (Arena.size_modify ..).symm }
  | attach => exact { same with instances := Nat.le_of_eq (Arena.size_modify ..).symm }
  | furnish => exact { same with registries := one (Arena.size_push ..) }
  | deal _ deals =>
    obtain ⟨instances,registries⟩ := deals.size
    obtain ⟨_,_,_,rfl⟩ := deals.spares
    exact { same with
      instances := Nat.le_of_eq instances.symm
      registries := Nat.le_of_eq registries.symm }

theorem bindings (alteration : Alteration l store later) (scope : Scope) :
    (store.frame scope).bindings.Updates l.brings (l.assigns (.scope scope)) store
        (later.frame scope).bindings ∨
      l.clears scope ∧ (later.frame scope).bindings = .empty := by
  cases alteration with
  | enter enclosing =>
    left
    rcases store.frame_addFrame_cases { enclosing } scope with same | ⟨absent,same⟩ <;> rw [same]
    · exact .same
    · rw [absent]
      exact .same
  | @bind owner v here brought free =>
    left
    rcases store.frame_modifyFrame_cases owner scope _ with same | ⟨rfl,same⟩ <;> rw [same]
    · exact .same
    · exact .bind brought free
  | @assign owner name v next value assigning held assigned =>
    left
    rcases store.frame_modifyFrame_cases owner scope _ with same | ⟨rfl,same⟩ <;> rw [same]
    · exact .same
    · exact .assign assigning held assigned
  | @define owner =>
    left
    rcases store.frame_modifyFrame_cases owner scope _ with same | ⟨_,same⟩ <;> rw [same] <;>
      exact .same
  | @adopt owner c =>
    left
    rcases (store.addClass c).2.frame_modifyFrame_cases owner scope _ with same | ⟨_,same⟩ <;>
      rw [Scope.adopt,same] <;> exact .same
  | @clear owner cleared =>
    rcases store.frame_modifyFrame_cases owner scope _ with same | ⟨rfl,same⟩ <;> rw [same]
    · exact .inl .same
    · exact .inr ⟨cleared,rfl⟩
  | @setMember _ _ _ place => cases place <;> exact .inl .same
  | deal _ deals =>
    obtain ⟨_,_,_,rfl⟩ := deals.spares
    exact .inl .same
  | make | reparent | record | create | attach | furnish => exact .inl .same

/-- A class keeps all but its parents and the variables that it shares, or it is new. -/
theorem classOf (alteration : Alteration l store later) (c : ClassId) :
    (∃ parents sharedVariables,
      later.classOf c = { store.classOf c with parents, sharedVariables } ∧
      (store.classOf c).sharedVariables.Updates (fun _ => False) (l.assigns (.shared c)) store
        sharedVariables) ∨
    store.classes.size ≤ c.index ∧ l.introduces (later.classOf c) ∧
      ∀ v, (later.classOf c).Holds v → l.brings v := by
  have unrevised : later.classOf c = store.classOf c → ∃ parents sharedVariables,
      later.classOf c = { store.classOf c with parents, sharedVariables } ∧
      (store.classOf c).sharedVariables.Updates (fun _ => False) (l.assigns (.shared c)) store
        sharedVariables :=
    fun same => ⟨_,_,same,.same⟩
  have added : ∀ d, l.introduces d → (∀ v, d.Holds v → l.brings v) →
      later.classOf c = (store.addClass d).2.classOf c →
      later.classOf c = store.classOf c ∨ store.classes.size ≤ c.index ∧
        l.introduces (later.classOf c) ∧ ∀ v, (later.classOf c).Holds v → l.brings v := by
    intro d introduced brought body
    -- The class comes in under the first identity out of use, and every other reads as before.
    by_cases new : c.index = store.classes.size
    · obtain rfl : c = (store.addClass d).1 := congrArg ClassId.mk new
      rw [body,Store.classOf_addClass_self]
      exact .inr ⟨Nat.le_refl _,introduced,brought⟩
    · exact .inl (body.trans (Arena.get_push_of_ne new d))
  cases alteration with
  | adopt _ introduced brought => exact (added _ introduced brought rfl).imp_left unrevised
  | make introduced brought => exact (added _ introduced brought rfl).imp_left unrevised
  | reparent d parents =>
    left
    rcases store.classOf_modifyClass_cases d c _ with same | ⟨_,same⟩
    · exact unrevised same
    · exact ⟨parents,_,same,.same⟩
  | @setMember o name _ place v next value assigning found assigned =>
    left
    cases place with
    | own => exact unrevised rfl
    | shared =>
      rcases store.classOf_modifyClass_cases (store.object o).definition c _ with
        same | ⟨rfl,same⟩
      · exact unrevised same
      · exact ⟨_,_,same,.assign assigning (Object.get?_of_member found) assigned⟩
  | deal _ deals =>
    obtain ⟨_,_,_,rfl⟩ := deals.spares
    exact .inl (unrevised rfl)
  | enter | bind | assign | define | clear | record | create | attach | furnish =>
    exact .inl (unrevised rfl)

theorem object (alteration : Alteration l store later) (o : Object) :
    o.Lasts l store later ∨
      store.instances.size ≤ o.index ∧ (later.object o).Fresh l.makes store := by
  have present : ∀ (other : Object) (f : Instance → Instance),
      o.index < (store.modifyObject other f).instances.size → o.index < store.instances.size :=
    fun other f there => by rwa [Store.modifyObject,Arena.size_modify] at there
  cases alteration with
  | @create it fresh =>
    by_cases new : o.index = store.instances.size
    · obtain rfl : o = (store.addObject it).1 := congrArg Object.mk new
      rw [Store.object_addObject_self]
      exact .inr ⟨Nat.le_refl _,fresh⟩
    · refine .inl (Object.lasts_of_eq (Arena.get_push_of_ne new it) fun there => ?_)
      rw [Store.addObject,Arena.size_push] at there
      omega
  | @setMember other name _ place v next value assigning found assigned =>
    left
    cases place with
    | own =>
      rw [Object.putMember]
      rcases store.object_modifyObject_cases other o _ with same | ⟨rfl,same⟩
      · exact Object.lasts_of_eq same (present _ _)
      · refine ⟨present _ _,?_,?_,?_,?_,fun _ => ?_⟩ <;> rw [same]
        exact .assign assigning (Object.get?_of_member found) assigned
    | shared => exact Object.lasts_of_eq rfl id
  | attach other hostData =>
    left
    rcases store.object_modifyObject_cases other o _ with same | ⟨_,same⟩
    · exact Object.lasts_of_eq same (present _ _)
    · refine ⟨present _ _,?_,?_,?_,?_,fun _ => ?_⟩ <;> rw [same]
      exact .same
  | deal dealt deals =>
    obtain ⟨handle,same⟩ := deals.object o
    refine .inl ⟨fun there => deals.size.1 ▸ there,?_,?_,?_,?_,fun none => ?_⟩
    · rw [same]
    · rw [same]
    · rw [same]
    · rw [same]
      exact .same
    · exact absurd dealt (none _)
  | enter | bind | assign | define | adopt | clear | make | reparent | record | furnish =>
    exact .inl (Object.lasts_of_eq rfl id)

/-- Recorded orders stay, and others come in as the licence has it. -/
theorem memo (alteration : Alteration l store later) :
    store.memo.Extends later.memo ∧ (later.memo = store.memo ∨ l.records later.memo) := by
  have kept : store.memo.Extends store.memo := fun _ _ known => known
  cases alteration with
  | record recorded extended => exact ⟨extended,.inr recorded⟩
  | @setMember _ _ _ place => cases place <;> exact ⟨kept,.inl rfl⟩
  | deal _ deals =>
    obtain ⟨_,_,_,rfl⟩ := deals.spares
    exact ⟨kept,.inl rfl⟩
  | enter | bind | assign | define | adopt | clear | make | reparent | create | attach | furnish =>
    exact ⟨kept,.inl rfl⟩

end Alteration

namespace Alters

variable {l : Licence β} {store later : Store β}

theorem grows (alters : Alters l store later) : store.Grows later := by
  induction alters with
  | refl => exact .refl store
  | tail _ alteration ih => exact ih.trans alteration.grows

/-- A class keeps all but its parents and the shared variables that are assigned, or it is brought
in, and these may be set already. -/
theorem classOf (alters : Alters l store later) (c : ClassId) :
    (∃ parents sharedVariables,
      later.classOf c = { store.classOf c with parents, sharedVariables } ∧
      ∀ name v, (store.classOf c).sharedVariables.get? name = some v →
        ¬l.assigns (.shared c) name → sharedVariables.get? name = some v) ∨
    store.classes.size ≤ c.index ∧ ∃ d parents sharedVariables, l.introduces d ∧
      later.classOf c = { d with parents, sharedVariables } := by
  induction alters with
  | refl => exact .inl ⟨_,_,rfl,fun _ _ held _ => held⟩
  | tail before alteration ih =>
    -- A class that an earlier change brought in counts as brought in after all that follows.
    rcases alteration.classOf c with ⟨parents,shared,same,updates⟩ | ⟨absent,introduced,_⟩
    · rcases ih with ⟨_,earlier,body,kept⟩ | ⟨new,d,_,earlier,introduced,body⟩
      · rw [body] at same updates
        refine .inl ⟨parents,shared,same,fun name v held free => ?_⟩
        exact updates.keeps (kept name v held free) free
      · rw [body] at same
        exact .inr ⟨new,d,parents,shared,introduced,same⟩
    · exact .inr ⟨Nat.le_trans (Alters.grows before).classes absent,_,_,_,introduced,rfl⟩

theorem memo (alters : Alters l store later) :
    later.memo = store.memo ∨ l.records later.memo := by
  induction alters with
  | refl => exact .inl rfl
  | tail _ alteration ih =>
    rcases alteration.memo.2 with same | recorded
    · rwa [same]
    · exact .inr recorded

end Alters

end ObjectModel
