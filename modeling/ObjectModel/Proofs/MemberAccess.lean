import ObjectModel.Proofs.InstanceLayout
import ObjectModel.Proofs.Substitutability

/-! Members read and assigned. Both go by the same search, so they are refused alike, and an
assignment replaces the value of the one variable that the search comes to. A member that an object
has of its own is nobody else's. One that its class shares belongs to all objects of that very class
that have none of their own, those made later included, and to no subclass. -/
namespace ObjectModel

variable {β σ : Type}

def ClassId.make (c : ClassId) : Option Scope → Action (Store β) Object
  | some scope => c.instantiate scope
  | none => c.detached

theorem ClassId.classes_make (c : ClassId) (scope : Option Scope) (store : Store β) :
    ((c.make scope).run store).2.classes = store.classes := by
  cases scope with
  | none => rfl
  | some scope =>
    have kept : (c.instantiate scope : Action (Store β) Object).Keeps Store.classes :=
      Action.Keeps.bind (fun _ => rfl) fun _ =>
        (Action.looks_read _).keeps.bind fun _ => Action.keeps_update fun _ => rfl
    exact kept store

namespace Store

/-- Two stores that differ at most in the variables that classes share and instances have. -/
structure Alike (store other : Store β) : Prop where
  frames : other.frames = store.frames
  registries : other.registries = store.registries
  memo : other.memo = store.memo
  nextHandle : other.nextHandle = store.nextHandle
  classCount : other.classes.size = store.classes.size
  instanceCount : other.instances.size = store.instances.size
  classOf : ∀ c, ∃ sharedVariables, other.classOf c = { store.classOf c with sharedVariables }
  object : ∀ p, ∃ members, other.object p = { store.object p with members }

namespace Alike

variable {store other : Store β}

theorem lookupClass (alike : store.Alike other) (scope : Scope) (name : String) :
    scope.lookupClass other name = scope.lookupClass store name := by
  simp only [Scope.lookupClass,Scope.nearest?,Store.chain,Store.frame,alike.frames]

theorem definition (alike : store.Alike other) (p : Object) :
    (other.object p).definition = (store.object p).definition := by
  obtain ⟨_,body⟩ := alike.object p
  rw [body]

theorem qualifiedName (alike : store.Alike other) (c : ClassId) :
    (other.classOf c).qualifiedName = (store.classOf c).qualifiedName := by
  obtain ⟨_,body⟩ := alike.classOf c
  rw [body]
  rfl

theorem qualifiedName_definitionOf (alike : store.Alike other) (p : Object) :
    (other.definitionOf p).qualifiedName = (store.definitionOf p).qualifiedName := by
  rw [Store.definitionOf,alike.definition]
  exact alike.qualifiedName _

/-- Orders go by scopes, names, parents and what is recorded, and so come out the same. -/
theorem linearization (alike : store.Alike other) (c : ClassId) (scope : Scope) :
    ((c.linearization scope).run other).1 = ((c.linearization scope).run store).1 ∧
      Alike ((c.linearization scope).run store).2 ((c.linearization scope).run other).2 := by
  have parents : ∀ d, (other.classOf d).parents = (store.classOf d).parents := by
    intro d
    obtain ⟨_,body⟩ := alike.classOf d
    rw [body]
  have same := ClassId.computeOrder_congr (fun name => (alike.lookupClass scope name).symm)
    (fun d => ⟨alike.qualifiedName d,parents d⟩)
  have ordered : (c.linearization scope).run other = (((c.linearization scope).run store).1,
      { other with memo := ((c.linearization scope).run store).2.memo }) := by
    simp only [ClassId.linearization,Action.run,alike.classCount,alike.memo,same]
  rw [ordered]
  exact ⟨rfl,{ alike with memo := rfl }⟩

end Alike

/-- An instance that is added gets the same place in stores with the same number of instances. -/
theorem addObject_congr {store other : Store β}
    (count : other.instances.size = store.instances.size) (i : Instance) :
    (other.addObject i).1 = (store.addObject i).1 ∧
    ∀ p, (store.addObject i).1 = p →
      (other.addObject i).2.object p = (store.addObject i).2.object p := by
  have place : (other.addObject i).1 = (store.addObject i).1 := congrArg Object.mk count
  refine ⟨place,?_⟩
  rintro _ rfl
  rw [object_addObject_self,← place,object_addObject_self]

/-- A new instance comes out the same in both stores. -/
theorem Alike.make {store other : Store β} (alike : store.Alike other) (c : ClassId)
    (scope : Option Scope) :
    ((c.make scope).run other).1 = ((c.make scope).run store).1 ∧
    ∀ p, ((c.make scope).run store).1 = .ok p →
      ((c.make scope).run other).2.object p = ((c.make scope).run store).2.object p := by
  cases scope with
  | none =>
    obtain ⟨_,body⟩ := alike.classOf c
    simp only [ClassId.make,ClassId.detached,Action.run_update,body,Except.ok.injEq]
    exact addObject_congr alike.instanceCount _
  | some scope =>
    obtain ⟨ordered,alike⟩ := alike.linearization c scope
    simp only [ClassId.make,ClassId.instantiate,Action.run_bind,Action.run_read,Action.run_update]
    -- From here on only that the order is the same and that the stores are alike again matters.
    generalize (c.linearization scope).run store = before at ordered alike
    generalize (c.linearization scope).run other = after at ordered alike
    obtain ⟨_,store⟩ := before
    obtain ⟨result,other⟩ := after
    obtain rfl : result = _ := ordered
    cases result with
    | error e => exact ⟨rfl,fun _ made => by cases made⟩
    | ok hierarchy =>
      simp only
      rw [ClassId.layout_congr (alike.lookupClass scope) alike.classOf]
      cases ClassId.layout store scope c hierarchy.reverse .empty with
      | error e => exact ⟨rfl,fun _ made => by cases made⟩
      | ok members =>
        simp only [Except.ok.injEq]
        exact addObject_congr alike.instanceCount _

end Store

namespace Seat

def table (store : Store β) : Seat → Table Variable
  | .scope s => (store.frame s).bindings
  | .shared c => (store.classOf c).sharedVariables
  | .own o => (store.object o).members

/-- One variable takes a value, and nothing else changes. -/
structure Takes (seat : Seat) (name : String) (value : Value) (store later : Store β) : Prop
    extends store.Alike later where
  written : ∃ v, seat.occupant? store name = some v ∧
    seat.occupant? later name = some { v with value }
  spared : ∀ (other : Seat) (n : String), (other,n) ≠ (seat,name) →
    other.occupant? later n = other.occupant? store n
  names : ∀ other : Seat, (other.table later).names = (other.table store).names

variable {seat : Seat} {store later : Store β} {name : String} {v : Variable} {value : Value}

theorem occupant?_eq (seat : Seat) (store : Store β) (name : String) :
    seat.occupant? store name = (seat.table store).get? name := by
  cases seat <;> rfl

theorem takes_of_insert (alike : store.Alike later) (held : seat.occupant? store name = some v)
    (itself : seat.table later = (seat.table store).insert name { v with value })
    (apart : ∀ other, other ≠ seat → other.table later = other.table store) :
    seat.Takes name value store later := by
  refine ⟨alike,⟨v,held,?_⟩,fun other n different => ?_,fun other => ?_⟩
  · rw [occupant?_eq,itself,Table.get?_insert_self]
  · rw [occupant?_eq,occupant?_eq]
    by_cases same : other = seat
    · have another : n ≠ name := by
        rintro rfl
        exact different (congrArg (·,n) same)
      rw [same,itself,Table.get?_insert_of_ne another]
    · rw [apart other same]
  · by_cases same : other = seat
    · rw [same,itself]
      rw [occupant?_eq] at held
      exact Table.names_insert_of_some held _
    · rw [apart other same]

end Seat

theorem Object.lt_size_of_get? {store : Store β} {o : Object} {name : String} {v : Variable}
    (held : (store.object o).members.get? name = some v) : o.index < store.instances.size := by
  by_contra absent
  have blank : store.object o = default := Arena.get_of_size_le (Nat.le_of_not_lt absent)
  rw [blank] at held
  contradiction

theorem ClassId.lt_size_of_get? {store : Store β} {c : ClassId} {name : String} {v : Variable}
    (held : (store.classOf c).sharedVariables.get? name = some v) :
    c.index < store.classes.size := by
  by_contra absent
  have blank : store.classOf c = default := Arena.get_of_size_le (Nat.le_of_not_lt absent)
  rw [blank] at held
  contradiction

theorem Object.takes_putMember {store : Store β} {o : Object} {place : Object.Place} {name : String}
    {v : Variable} (held : (o.table store place).get? name = some v) (value : Value) :
    (o.seat store place).Takes name value store
      (o.putMember name { v with value } store place) := by
  cases place with
  | own =>
    have itself := Arena.get_modify_self (Object.lt_size_of_get? held) fun it =>
      { it with members := it.members.insert name { v with value } }
    refine Seat.takes_of_insert ?_ held (congrArg Instance.members itself) fun other apart => ?_
    · refine ⟨rfl,rfl,rfl,rfl,rfl,Arena.size_modify _ _ _,fun c => ⟨_,rfl⟩,fun p => ?_⟩
      rcases store.object_modifyObject_cases o p _ with kept | ⟨_,replaced⟩
      · exact ⟨_,kept⟩
      · exact ⟨_,replaced⟩
    · cases other with
      | scope | shared => rfl
      | own p =>
        have elsewhere : p.index ≠ o.index := fun same => apart (congrArg (Seat.own ⟨·⟩) same)
        exact congrArg Instance.members (Arena.get_modify_of_ne elsewhere _ _)
  | shared =>
    have itself := Arena.get_modify_self (ClassId.lt_size_of_get? held) fun it =>
      { it with sharedVariables := it.sharedVariables.insert name { v with value } }
    refine Seat.takes_of_insert ?_ held (congrArg Class.sharedVariables itself)
      fun other apart => ?_
    · refine ⟨rfl,rfl,rfl,rfl,Arena.size_modify _ _ _,rfl,fun c => ?_,fun p => ⟨_,rfl⟩⟩
      rcases store.classOf_modifyClass_cases (store.object o).definition c _ with
        kept | ⟨_,replaced⟩
      · exact ⟨_,kept⟩
      · exact ⟨_,replaced⟩
    · cases other with
      | scope | own => rfl
      | shared c =>
        have elsewhere : c.index ≠ (store.object o).definition.index :=
          fun same => apart (congrArg (Seat.shared ⟨·⟩) same)
        exact congrArg Class.sharedVariables (Arena.get_modify_of_ne elsewhere _ _)

theorem Value.isCast_of_cast {store : Store β} {value : Value} {type : TypeName} {e : Error}
    (failed : value.cast store type = .error e) : e.isCast := by
  cases value with
  | nothing | boolean | integer | double => cases type <;> cases failed <;> rfl
  | string s =>
    cases type with
    | integer | double =>
      simp only [cast,castText] at failed
      split at failed <;> cases failed
      rfl
    | _ => cases failed <;> rfl
  | object o =>
    cases type with
    | named name =>
      simp only [cast,castObject] at failed
      split at failed <;> cases failed
      rfl
    | _ => cases failed <;> rfl

theorem Variable.isLocked_or_isCast_of_assign {store : Store β} {v : Variable} {value : Value}
    {e : Error} (failed : v.assign store value = .error e) : e.isLocked ∨ e.isCast := by
  unfold assign prepare at failed
  split at failed
  · obtain rfl := Except.error.inj failed
    exact .inl rfl
  · cases fits : value.cast store v.type with
    | ok fitted => simp [fits,Except.map] at failed
    | error cause =>
      rw [fits] at failed
      obtain rfl := Except.error.inj failed
      exact .inr (Value.isCast_of_cast fits)

namespace Object

variable {store later : Store β} {o p : Object} {c : ClassId} {name : String} {v : Variable}

/-- The object is of this very class and has no member of its own under the name. -/
structure Shares (p : Object) (store : Store β) (c : ClassId) (name : String) : Prop where
  definition : (store.object p).definition = c
  absent : (store.object p).members.get? name = none

/-- Where an object does not share this variable, what it shares is another one. -/
theorem Shares.apart {d : ClassId} {n : String} (shares : p.Shares store d n)
    (unshared : ¬(p.Shares store c n ∧ n = name)) : (Seat.shared d,n) ≠ (Seat.shared c,name) := by
  intro same
  obtain ⟨seat,rfl⟩ := Prod.mk.inj same
  obtain rfl := Seat.shared.inj seat
  exact unshared ⟨shares,rfl⟩

/-- An object that shares reads what its class holds, whoever asks. -/
theorem Shares.getMember (shares : p.Shares store c name)
    (held : (Seat.shared c).occupant? store name = some v) (caller : Caller) :
    p.getMember store name caller = .ok v.value := by
  obtain ⟨rfl,absent⟩ := shares
  have held : (store.definitionOf p).sharedVariables.get? name = some v := held
  simp only [Object.getMember,member,absent,held]
  rfl

/-- What an object reads is decided by its own members, by its class, and where it shares by what
this holds. -/
theorem getMember_congr {other : Store β}
    (definition : (other.object p).definition = (store.object p).definition)
    (named : (other.definitionOf p).qualifiedName = (store.definitionOf p).qualifiedName)
    (own : (Seat.own p).occupant? other name = (Seat.own p).occupant? store name)
    (shared : p.Shares store (store.object p).definition name →
      (Seat.shared (store.object p).definition).occupant? other name =
        (Seat.shared (store.object p).definition).occupant? store name) (caller : Caller) :
    p.getMember other name caller = p.getMember store name caller := by
  have members : (other.object p).members.get? name = (store.object p).members.get? name := own
  have body : other.definitionOf p = other.classOf (store.object p).definition :=
    congrArg other.classOf definition
  simp only [Object.getMember,member,named,members]
  cases absent : (store.object p).members.get? name with
  | some v => rfl
  | none =>
    have held : (other.definitionOf p).sharedVariables.get? name =
        (store.definitionOf p).sharedVariables.get? name := by
      rw [body]
      exact shared ⟨rfl,absent⟩
    simp only [held]

theorem member_eq_shared_iff {caller : Caller} :
    o.member store name caller = .ok (.shared,v) ↔ (store.object o).members.get? name = none ∧
      (store.definitionOf o).sharedVariables.get? name = some v := by
  simp only [member]
  cases (store.object o).members.get? name with
  | some found =>
    simp only [reduceCtorEq,false_and,iff_false]
    split <;> simp
  | none => cases (store.definitionOf o).sharedVariables.get? name <;> simp

/-- Code may read a member where it may assign it, up to the lock and the value. -/
theorem getMember_eq_error_iff {value : Value} {caller : Caller} {e : Error}
    (refusal : e.isInaccessible ∨ e.isNotFound) :
    o.getMember store name caller = .error e ↔
      ((o.setMember name value caller).run store).1 = .error e := by
  rw [run_setMember,getMember]
  rcases o.member store name caller with cause | ⟨place,v⟩
  · simp [Except.map]
  · have fails : v.assign store value ≠ .error e := by
      intro failed
      have other := Variable.isLocked_or_isCast_of_assign failed
      cases e <;>
        simp [Error.isInaccessible,Error.isNotFound,Error.isLocked,Error.isCast] at refusal other
    simp only [Except.map]
    cases assigned : v.assign store value with
    | ok next => simp
    | error cause =>
      rw [assigned] at fails
      simpa using fails

theorem eq_putMember_of_setMember {value : Value} {caller : Caller}
    (set : (o.setMember name value caller).run store = (.ok (),later)) :
    ∃ place v fitted, o.member store name caller = .ok (place,v) ∧
      value.cast store v.type = .ok fitted ∧
      later = o.putMember name { v with value := fitted } store place := by
  rw [run_setMember] at set
  rcases found : o.member store name caller with cause | ⟨place,v⟩ <;> rw [found] at set
  · simp at set
  · cases assigned : v.assign store value with
    | error cause => simp [assigned] at set
    | ok next =>
      simp only [assigned,Prod.mk.injEq,true_and] at set
      obtain ⟨_,fitted,fits,rfl⟩ := Variable.assign_eq_ok_iff.mp assigned
      exact ⟨place,v,fitted,rfl,fits,set.symm⟩

end Object

namespace Seat.Takes

variable {seat : Seat} {store later : Store β} {name : String} {value : Value} {p : Object}

theorem member {o : Object} {place : Object.Place} {v : Variable} {caller : Caller}
    (takes : (o.seat store place).Takes name value store later)
    (found : o.member store name caller = .ok (place,v)) :
    o.member later name caller = .ok (place,{ v with value }) := by
  obtain ⟨u,before,after⟩ := takes.written
  cases place with
  | own =>
    obtain ⟨held,allowed⟩ := Object.member_eq_own_iff.mp found
    obtain rfl := Option.some.inj (before.symm.trans held)
    refine Object.member_eq_own_iff.mpr ⟨after,?_⟩
    rwa [Class.identity,takes.qualifiedName_definitionOf]
  | shared =>
    obtain ⟨absent,held⟩ := Object.member_eq_shared_iff.mp found
    obtain rfl := Option.some.inj (before.symm.trans held)
    have spared := takes.spared (.own o) name (by simp [Object.seat])
    refine Object.member_eq_shared_iff.mpr ⟨spared.trans absent,?_⟩
    rw [Store.definitionOf,takes.definition]
    exact after

theorem getMember (takes : seat.Takes name value store later) {n : String}
    (own : (Seat.own p,n) ≠ (seat,name))
    (shared : ∀ c, p.Shares store c n → (Seat.shared c,n) ≠ (seat,name)) (caller : Caller) :
    p.getMember later n caller = p.getMember store n caller :=
  Object.getMember_congr (takes.definition p) (takes.qualifiedName_definitionOf p)
    (takes.spared _ n own) (fun shares => takes.spared _ n (shared _ shares)) caller

theorem getMember_make (takes : seat.Takes name value store later) {d : ClassId}
    {scope : Option Scope} (made : ((d.make scope).run store).1 = .ok p) {n : String}
    (shared : ∀ c, p.Shares ((d.make scope).run later).2 c n → (Seat.shared c,n) ≠ (seat,name))
    (caller : Caller) :
    p.getMember ((d.make scope).run later).2 n caller =
      p.getMember ((d.make scope).run store).2 n caller := by
  have same := (takes.make d scope).2 p made
  have before := d.classes_make scope store
  have after := d.classes_make scope later
  -- The two stores agree on the new object, and their classes are those of before.
  generalize ((d.make scope).run store).2 = first at same before
  generalize ((d.make scope).run later).2 = second at same after shared
  have definition : (second.object p).definition = (first.object p).definition :=
    congrArg Instance.definition same
  have was : first.classOf = store.classOf := funext fun c => congrArg (·.get c.index) before
  have becomes : second.classOf = later.classOf := funext fun c => congrArg (·.get c.index) after
  refine Object.getMember_congr definition ?_ ?_ (fun shares => ?_) caller
  · rw [Store.definitionOf,Store.definitionOf,definition,was,becomes]
    exact takes.qualifiedName _
  · rw [Seat.occupant?,Seat.occupant?,same]
  · have apart := shared (first.object p).definition ⟨definition,same ▸ shares.absent⟩
    rw [Seat.occupant?,Seat.occupant?,was,becomes]
    exact takes.spared _ n apart

end Seat.Takes

def Event.Leaves (seat : Seat) (name : String) : List (Store β) → Event β σ → Prop
  | store :: _, e => e.target? store ≠ some (seat,name)
  | [], _ => True

/-- A variable that a class shares stays until it is assigned. -/
theorem Event.occupant?_shared {host : Host β σ} {w : World β σ} {e : Event β σ} {c : ClassId}
    {name : String} {v : Variable} (held : (Seat.shared c).occupant? w.store name = some v)
    (leaves : e.target? w.store ≠ some (.shared c,name)) :
    (Seat.shared c).occupant? (e.perform host w).store name = some v := by
  rcases (e.alters host w).classOf c with ⟨parents,sharedVariables,body,kept⟩ | ⟨absent,_⟩
  · rw [Seat.occupant?,body]
    exact kept name v held leaves
  · exact absurd (ClassId.lt_size_of_get? held) (Nat.not_lt_of_le absent)

theorem World.Attains.occupant?_shared {host : Host β σ} {start w : World β σ}
    {past : List (Store β)} {c : ClassId} {name : String} {v : Variable}
    (attained : Attains host (Event.Leaves (.shared c) name) start past w)
    (held : (Seat.shared c).occupant? start.store name = some v) :
    (Seat.shared c).occupant? w.store name = some v :=
  attained.holds (fun _ store => (Seat.shared c).occupant? store name = some v)
    (fun _ _ _ still leaves => Event.occupant?_shared still leaves) held

/-- Reading and assigning a member. They are refused for the same reasons in the same cases. After
an assignment the member reads as the value cast to its type, only that variable has changed, and
new instances come out as before. If the variable is the object's own, no other object and no class
has changed. If its class shares it, then the objects of that very class without a member of their
own read the value under the name, until it is assigned again, and all else reads as before. -/
theorem member_access_laws (store : Store β) (o : Object) (name : String) (value : Value)
    (caller : Caller) :
    (∀ e : Error, e.isInaccessible ∨ e.isNotFound →
      (o.getMember store name caller = .error e ↔
        ((o.setMember name value caller).run store).1 = .error e)) ∧
    ∀ later, (o.setMember name value caller).run store = (.ok (),later) →
      ∃ place v fitted, o.member store name caller = .ok (place,v) ∧
        value.cast store v.type = .ok fitted ∧ o.getMember later name caller = .ok fitted ∧
        (o.seat store place).Takes name fitted store later ∧
        (∀ (d : ClassId) (scope : Option Scope),
          ((d.make scope).run later).1 = ((d.make scope).run store).1 ∧
          ∀ p, ((d.make scope).run store).1 = .ok p →
            ((d.make scope).run later).2.object p = ((d.make scope).run store).2.object p) ∧
        match place with
        | .own => later.classes = store.classes ∧ ∀ p, p ≠ o → later.object p = store.object p
        | .shared =>
          let c := (store.object o).definition
          (∀ {σ : Type} (host : Host β σ) (state : σ) past w,
            World.Attains host (Event.Leaves (.shared c) name) ⟨later,state⟩ past w →
            ∀ p : Object, p.Shares w.store c name →
              ∀ k, p.getMember w.store name k = .ok fitted) ∧
          (∀ (p : Object) n, ¬(p.Shares store c n ∧ n = name) →
            ∀ k, p.getMember later n k = p.getMember store n k) ∧
          ∀ (d : ClassId) (scope : Option Scope) p, ((d.make scope).run store).1 = .ok p →
            ∀ n, ¬(p.Shares ((d.make scope).run later).2 c n ∧ n = name) →
              ∀ k, p.getMember ((d.make scope).run later).2 n k =
                p.getMember ((d.make scope).run store).2 n k := by
  refine ⟨fun e refusal => Object.getMember_eq_error_iff refusal,fun later set => ?_⟩
  obtain ⟨place,v,fitted,found,fits,rfl⟩ := Object.eq_putMember_of_setMember set
  have held := Object.get?_of_member found
  have takes := Object.takes_putMember held fitted
  refine ⟨place,v,fitted,found,fits,?_,takes,takes.make,?_⟩
  · rw [Object.getMember,takes.member found]
    rfl
  · cases place with
    | own =>
      refine ⟨rfl,fun p apart => ?_⟩
      exact Arena.get_modify_of_ne (fun same => apart (congrArg Object.mk same)) _ _
    | shared =>
      refine ⟨?_,?_,?_⟩
      · intro σ host state past w attained p shares k
        obtain ⟨_,_,after⟩ := takes.written
        exact shares.getMember (attained.occupant?_shared after) k
      · intro p n unshared k
        exact takes.getMember (by simp [Object.seat]) (fun _ shares => shares.apart unshared) k
      · intro d scope p made n unshared k
        exact takes.getMember_make made (fun _ shares => shares.apart unshared) k

/-! Two objects of one class, which shares a variable, and one of a subclass. -/
namespace Commons

def owner : Class Unit :=
  (Class.declareVariable { name := "A", modulePath := "m" }
    (.dynamic "X" (.integer 0))).declareSharedVariable
    { name := "S", type := .integer, value := .integer 5 }

def derived : Class Unit := { name := "B", modulePath := "m", parents := ["A"] }

def ctx : Context := Runtime.first.globalContext

def store : Store Unit :=
  (World.first.play .idle [.ask ctx (.defineClass owner),.ask ctx (.defineClass derived),
    .ask ctx (.instantiate ⟨0⟩),.ask ctx (.instantiate ⟨0⟩),.ask ctx (.instantiate ⟨1⟩)]).store

def later (name : String) (value : Value) : Store Unit :=
  ((Object.setMember ⟨0⟩ name value .outside).run store).2

def events : List (Event Unit Unit) := [.move (.ask ctx (.instantiate ⟨0⟩))]

def last (name : String) (value : Value) : World Unit Unit :=
  World.replay .idle ⟨later name value,()⟩ events

theorem attained (name : String) (value : Value) : ∃ past,
    World.Attains .idle (Event.Leaves (.shared ⟨0⟩) "S") ⟨later name value,()⟩ past
      (last name value) := by
  have conforms : World.Conforms .idle (Event.Leaves (.shared ⟨0⟩) "S") []
      ⟨later name value,()⟩ events := ⟨nofun,trivial⟩
  exact ⟨_,.series .start conforms⟩

end Commons

/-- What is assigned to the shared variable, cast to its type, is read by the other object of the
class and by one made later, and not by the object of the subclass. What is assigned to the member
of an object leaves the other one as it is. -/
theorem member_access_laws_commons :
    Object.getMember ⟨1⟩ (Commons.later "S" (.boolean true)) "S" .outside = .ok (.integer 1) ∧
    Object.getMember ⟨3⟩ (Commons.last "S" (.boolean true)).store "S" .outside =
      .ok (.integer 1) ∧
    Object.getMember ⟨2⟩ (Commons.later "S" (.boolean true)) "S" .outside =
      .error (.notFound .memberVariable "S") ∧
    (Commons.later "X" (.integer 9)).object ⟨1⟩ = Commons.store.object ⟨1⟩ := by
  obtain ⟨place,v,fitted,found,fits,_,_,_,rest⟩ :=
    (member_access_laws Commons.store ⟨0⟩ "S" (.boolean true) .outside).2
      (Commons.later "S" (.boolean true)) rfl
  obtain ⟨rfl,rfl⟩ : Object.Place.shared = place ∧ _ = v :=
    Prod.mk.inj (Except.ok.inj (rfl.trans found))
  obtain rfl : Value.integer 1 = fitted := Except.ok.inj (rfl.trans fits)
  obtain ⟨lasting,spared,_⟩ := rest
  obtain ⟨place,v,_,found,_,_,_,_,rest⟩ :=
    (member_access_laws Commons.store ⟨0⟩ "X" (.integer 9) .outside).2
      (Commons.later "X" (.integer 9)) rfl
  obtain ⟨rfl,rfl⟩ : Object.Place.own = place ∧ _ = v :=
    Prod.mk.inj (Except.ok.inj (rfl.trans found))
  refine ⟨?_,?_,?_,rest.2 ⟨1⟩ (by decide)⟩
  · exact lasting .idle () _ _ .start ⟨1⟩ ⟨rfl,rfl⟩ .outside
  · obtain ⟨_,attained⟩ := Commons.attained "S" (.boolean true)
    exact lasting .idle () _ _ attained ⟨3⟩ ⟨rfl,rfl⟩ .outside
  · exact spared ⟨2⟩ "S" (fun shares => nomatch shares.1.definition) .outside

end ObjectModel
