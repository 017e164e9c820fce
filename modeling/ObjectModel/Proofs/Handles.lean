import ObjectModel.Proofs.Course

/-! Handles. The instances carry them, the registries list the instances by them, and one counter
for all registries gives them out. The three stay in step: along every series of events they are
what the dealings so far say. As long as the counter has not come round, no two instances have the
same handle; an instance keeps its handle from its first registration on, whatever is released; and
a registry finds under a handle what was entered there and not freed since. -/
namespace ObjectModel

variable {β σ : Type}

namespace Dealing

def Frees (r : Registry) (h : Handle) : Dealing → Prop
  | .enter .. => False
  | .release s k => s = r ∧ k = h
  | .clear s => s = r

def registry : Dealing → Registry
  | .enter r .. | .release r _ | .clear r => r

/-- The instance was entered in the registry under the handle, which has not been freed there
since. The log has the latest dealing first. -/
def Stands (r : Registry) (h : Handle) (o : Object) (log : List Dealing) : Prop :=
  ∃ since before, log = since ++ .enter r o h :: before ∧ ∀ d ∈ since, ¬d.Frees r h

/-- What stands after one more dealing stood before and is not freed by it, or it is the new
entry. -/
theorem stands_cons_iff {r : Registry} {h : Handle} {o : Object} {log : List Dealing}
    {d : Dealing} :
    Stands r h o (d :: log) ↔ Stands r h o log ∧ ¬d.Frees r h ∨ d = .enter r o h := by
  constructor
  · rintro ⟨since,before,split,unfreed⟩
    rcases List.cons_eq_append_iff.mp split with ⟨rfl,same⟩ | ⟨rest,rfl,rfl⟩
    · exact .inr (List.cons_eq_cons.mp same).1.symm
    · obtain ⟨kept,earlier⟩ := List.forall_mem_cons.mp unfreed
      exact .inl ⟨⟨rest,before,rfl,earlier⟩,kept⟩
  · rintro (⟨⟨since,before,rfl,unfreed⟩,kept⟩ | rfl)
    · exact ⟨d :: since,before,rfl,List.forall_mem_cons.mpr ⟨kept,unfreed⟩⟩
    · exact ⟨[],log,rfl,nofun⟩

end Dealing

namespace Registrations

variable {listed : Registrations} {h key : Handle} {o it : Object}

theorem mem_of_find? (found : listed.find? h = some o) : (h,o) ∈ listed := by
  induction listed with
  | nil => contradiction
  | cons entry rest ih =>
    simp only [find?] at found
    split at found
    next same =>
      obtain rfl := Option.some.inj found
      exact same ▸ List.mem_cons_self
    next => exact List.mem_cons_of_mem _ (ih found)

theorem mem_add (member : (key,it) ∈ listed.add h o) : (key,it) ∈ listed ∨ key = h ∧ it = o := by
  unfold add at member
  split at member
  next => exact .inl member
  next =>
    rcases List.mem_cons.mp member with new | old
    · exact .inr (Prod.mk.inj new)
    · exact .inl old

theorem find?_erase (listed : Registrations) (h key : Handle) :
    (listed.erase h).find? key = if key = h then none else listed.find? key := by
  induction listed with
  | nil => simp [erase,find?]
  | cons entry rest ih =>
    rw [erase] at ih ⊢
    by_cases freed : entry.1 = h
    · rw [List.filter_cons_of_neg (by simpa using freed),ih,find?]
      by_cases same : key = h
      · simp [same]
      · simp [same,freed,Ne.symm same]
    · rw [List.filter_cons_of_pos (by simpa using freed),find?,ih,find?]
      by_cases same : key = h
      · simp [same,freed]
      · simp [same]

end Registrations

namespace Store

structure SameHandles (store later : Store β) : Prop where
  handle : ∀ o, (later.object o).handle = (store.object o).handle
  registered : ∀ r, later.registered r = store.registered r
  next : later.nextHandle = store.nextHandle
  registries : store.registries.size ≤ later.registries.size

/-- How many handles were drawn from one store to the next. An event draws at most one, and that
moves the counter. -/
def drawn (store later : Store β) : Nat := if later.nextHandle = store.nextHandle then 0 else 1

theorem registered_modifyRegistry {store : Store β} {r : Registry}
    (present : r.index < store.registries.size) (f : Registrations → Registrations)
    (s : Registry) :
    (store.modifyRegistry r f).registered s =
      if s = r then f (store.registered r) else store.registered s := by
  split
  next same =>
    subst same
    exact Arena.get_modify_self present f
  next other =>
    exact Arena.get_modify_of_ne (fun same => other (congrArg Registry.mk same)) _ f

theorem SameHandles.refl (store : Store β) : store.SameHandles store :=
  ⟨fun _ => rfl,fun _ => rfl,rfl,Nat.le_refl _⟩

theorem SameHandles.trans {first second third : Store β} (before : first.SameHandles second)
    (after : second.SameHandles third) : first.SameHandles third where
  handle o := (after.handle o).trans (before.handle o)
  registered r := (after.registered r).trans (before.registered r)
  next := after.next.trans before.next
  registries := Nat.le_trans before.registries after.registries

end Store

theorem Alteration.sameHandles {l : Licence β} {store later : Store β}
    (alteration : Alteration l store later) (none : ∀ dealing, ¬l.deals dealing) :
    store.SameHandles later := by
  have handle : ∀ o, (later.object o).handle = (store.object o).handle := by
    intro o
    rcases alteration.object o with lasts | ⟨absent,fresh⟩
    · exact lasts.handle none
    · rw [fresh.unregistered,Store.object_of_size_le absent]
      rfl
  have registries := alteration.grows.registries
  cases alteration with
  | furnish =>
    refine ⟨handle,fun r => ?_,rfl,registries⟩
    rcases store.registries.get_push_cases [] r.index with kept | ⟨absent,new⟩
    · exact kept
    · exact new.trans absent.symm
  | @setMember _ _ _ place => cases place <;> exact ⟨handle,fun _ => rfl,rfl,registries⟩
  | deal dealt => exact absurd dealt (none _)
  | enter | bind | assign | define | adopt | clear | make | reparent | record | create | attach =>
    exact ⟨handle,fun _ => rfl,rfl,registries⟩

theorem Alters.sameHandles {l : Licence β} {store later : Store β} (alters : Alters l store later)
    (none : ∀ dealing, ¬l.deals dealing) : store.SameHandles later := by
  induction alters with
  | refl => exact .refl store
  | tail _ alteration ih => exact ih.trans (alteration.sameHandles none)

/-- The store is what the dealings so far say, with so many handles drawn. -/
structure Ledger (log : List Dealing) (count : Nat) (store : Store β) : Prop where
  handle : ∀ o h, (store.object o).handle = some h ↔ ∃ r, .enter r o h ∈ log
  drawn : ∀ o h, (store.object o).handle = some h → ∃ k < count, h = ⟨.ofNat (k + 1)⟩
  unique : ∀ o p h, (store.object o).handle = some h → (store.object p).handle = some h → o = p
  next : store.nextHandle = .ofNat (count + 1)
  entries : ∀ r h o, (h,o) ∈ store.registered r → (store.object o).handle = some h
  standing : ∀ r h o, Registrations.find? h (store.registered r) = some o ↔
    Dealing.Stands r h o log

namespace Ledger

variable {log : List Dealing} {count : Nat} {store later : Store β}

theorem empty : Ledger [] 0 (.empty : Store β) where
  handle o h := iff_of_false nofun (by simp)
  drawn o h held := nomatch held
  unique o p h held := nomatch held
  next := rfl
  entries r h o member := absurd member List.not_mem_nil
  standing r h o := by
    constructor
    · exact nofun
    · rintro ⟨before,after,split,_⟩
      simp at split

theorem transfer (ledger : Ledger log count store) (same : store.SameHandles later) :
    Ledger log count later where
  handle o h := by
    rw [same.handle]
    exact ledger.handle o h
  drawn o h := by
    rw [same.handle]
    exact ledger.drawn o h
  unique o p h := by
    rw [same.handle,same.handle]
    exact ledger.unique o p h
  next := same.next.trans ledger.next
  entries r h o := by
    rw [same.registered,same.handle]
    exact ledger.entries r h o
  standing r h o := by
    rw [same.registered]
    exact ledger.standing r h o

/-- What stands when an instance is entered under a handle that no other instance has. -/
theorem standing_enter {r : Registry} {o : Object} {h : Handle} (ledger : Ledger log count store)
    (alone : ∀ p, (store.object p).handle = some h → p = o)
    (listed : ∀ s, later.registered s =
      if s = r then (store.registered r).add h o else store.registered s)
    (s : Registry) (g : Handle) (p : Object) :
    Registrations.find? g (later.registered s) = some p ↔
      Dealing.Stands s g p (.enter r o h :: log) := by
  rw [Dealing.stands_cons_iff,← ledger.standing,listed]
  split
  next same =>
    subst same
    rw [Registrations.find?_add,Option.or_eq_some_iff]
    constructor
    · rintro (found | ⟨_,found⟩)
      · exact .inl ⟨found,nofun⟩
      · obtain ⟨rfl,rfl⟩ : g = h ∧ o = p := by simpa using found
        exact .inr rfl
    · rintro (⟨found,_⟩ | new)
      · exact .inl found
      · obtain ⟨_,rfl,rfl⟩ := Dealing.enter.inj new
        cases taken : Registrations.find? h (store.registered s) with
        | none => exact .inr ⟨rfl,by simp⟩
        | some q =>
          have has := ledger.entries s h q (Registrations.mem_of_find? taken)
          rw [alone q has]
          exact .inl rfl
  next other =>
    constructor
    · exact fun found => .inl ⟨found,nofun⟩
    · rintro (⟨found,_⟩ | new)
      · exact found
      · exact absurd (Dealing.enter.inj new).1.symm other

/-- An instance is entered under a handle that is its own, or that it is given now and no other
instance has. -/
theorem enter_of {r : Registry} {o : Object} {h : Handle} {total : Nat}
    (ledger : Ledger log count store)
    (handles : ∀ p, (later.object p).handle = if p = o then some h else (store.object p).handle)
    (own : ∀ g, (store.object o).handle = some g → g = h)
    (alone : ∀ p, (store.object p).handle = some h → p = o)
    (number : ∃ k < total, h = ⟨.ofNat (k + 1)⟩) (grown : count ≤ total)
    (next : later.nextHandle = .ofNat (total + 1))
    (listed : ∀ s, later.registered s =
      if s = r then (store.registered r).add h o else store.registered s) :
    Ledger (.enter r o h :: log) total later := by
  have new : (later.object o).handle = some h := by rw [handles,if_pos rfl]
  have kept : ∀ p g, (store.object p).handle = some g → (later.object p).handle = some g := by
    intro p g has
    by_cases same : p = o
    · subst same
      rw [new,own g has]
    · rw [handles,if_neg same,has]
  have held : ∀ p g, (later.object p).handle = some g →
      p = o ∧ g = h ∨ (store.object p).handle = some g := by
    intro p g has
    by_cases same : p = o
    · subst same
      exact .inl ⟨rfl,Option.some.inj (has.symm.trans new)⟩
    · rw [handles,if_neg same] at has
      exact .inr has
  refine {
    handle := fun p g => ⟨fun has => ?_,?_⟩
    drawn := fun p g has => ?_
    unique := fun p q g first second => ?_
    next
    entries := fun s g p member => ?_
    standing := ledger.standing_enter alone listed }
  · rcases held p g has with ⟨rfl,rfl⟩ | has
    · exact ⟨r,List.mem_cons_self⟩
    · obtain ⟨s,entered⟩ := (ledger.handle p g).mp has
      exact ⟨s,List.mem_cons_of_mem _ entered⟩
  · rintro ⟨s,entered⟩
    rcases List.mem_cons.mp entered with entered | entered
    · obtain ⟨_,rfl,rfl⟩ := Dealing.enter.inj entered
      exact new
    · exact kept p g ((ledger.handle p g).mpr ⟨s,entered⟩)
  · rcases held p g has with ⟨_,rfl⟩ | has
    · exact number
    · obtain ⟨k,below,numbered⟩ := ledger.drawn p g has
      exact ⟨k,Nat.lt_of_lt_of_le below grown,numbered⟩
  · rcases held p g first with ⟨rfl,rfl⟩ | first
    · rcases held q g second with ⟨rfl,_⟩ | second
      · rfl
      · exact (alone q second).symm
    · rcases held q g second with ⟨rfl,rfl⟩ | second
      · exact alone p first
      · exact ledger.unique p q g first second
  · rw [listed] at member
    split at member
    next same =>
      subst same
      rcases Registrations.mem_add member with old | ⟨rfl,rfl⟩
      · exact kept p g (ledger.entries s g p old)
      · exact new
    next => exact kept p g (ledger.entries s g p member)

theorem enter_again {r : Registry} {o : Object} {h : Handle} (ledger : Ledger log count store)
    (furnished : r.index < store.registries.size) (held : (store.object o).handle = some h) :
    Ledger (.enter r o h :: log) count (store.modifyRegistry r (Registrations.add · h o)) := by
  refine ledger.enter_of (fun p => ?_) (fun g has => ?_) (fun p has => ledger.unique p o h has held)
    (ledger.drawn o h held) (Nat.le_refl _) ledger.next
    (Store.registered_modifyRegistry furnished _)
  · split
    next same => rw [same,← held]; rfl
    next => rfl
  · exact Option.some.inj (has.symm.trans held)

theorem enter_new {r : Registry} {o : Object} (ledger : Ledger log count store)
    (furnished : r.index < store.registries.size) (made : o.index < store.instances.size)
    (fresh : (store.object o).handle = none) (few : count + 1 < UInt64.size) :
    Ledger (.enter r o ⟨store.nextHandle⟩ :: log) (count + 1)
      ((store.handOut o).modifyRegistry r (Registrations.add · ⟨store.nextHandle⟩ o)) := by
  refine ledger.enter_of (fun p => ?_) (fun g has => ?_) (fun p has => ?_)
    ⟨count,Nat.lt_succ_self _,by rw [ledger.next]⟩ (Nat.le_succ _) ?_
    (Store.registered_modifyRegistry furnished _)
  · split
    next same =>
      rw [same]
      exact congrArg Instance.handle (Arena.get_modify_self made _)
    next other =>
      exact congrArg Instance.handle
        (Arena.get_modify_of_ne (fun same => other (congrArg Object.mk same)) _ _)
  · simp [fresh] at has
  · obtain ⟨k,below,numbered⟩ := ledger.drawn p _ has
    rw [ledger.next,Handle.mk.injEq] at numbered
    have same := congrArg UInt64.toNat numbered
    rw [UInt64.toNat_ofNat_of_lt' (by omega),UInt64.toNat_ofNat_of_lt' (by omega)] at same
    omega
  · change store.nextHandle + 1 = _
    rw [ledger.next]
    exact (UInt64.ofNat_add _ _).symm

theorem enter {r : Registry} {o : Object} (ledger : Ledger log count store)
    (furnished : r.index < store.registries.size) (made : o.index < store.instances.size)
    (few : count + store.drawn (r.register o store).2 < UInt64.size) :
    Ledger (.enter r o (r.register o store).1 :: log)
      (count + store.drawn (r.register o store).2) (r.register o store).2 := by
  cases held : (store.object o).handle with
  | some h =>
    have drawn : store.drawn (r.register o store).2 = 0 := by
      rw [Registry.register_of_held held]
      exact if_pos rfl
    rw [drawn,Registry.register_of_held held]
    exact ledger.enter_again furnished held
  | none =>
    have drawn : store.drawn (r.register o store).2 = 1 := by
      have moves : store.nextHandle + 1 ≠ store.nextHandle := by simp
      rw [Registry.register_of_fresh held]
      exact if_neg moves
    rw [drawn] at few ⊢
    rw [Registry.register_of_fresh held]
    exact ledger.enter_new furnished made held few

theorem cut {r : Registry} {d : Dealing} {f : Registrations → Registrations}
    (ledger : Ledger log count store) (furnished : r.index < store.registries.size)
    (frees : ∀ s o h, d ≠ .enter s o h) (elsewhere : ∀ s h, d.Frees s h → s = r)
    (kept : ∀ listed, f listed ⊆ listed)
    (finds : ∀ listed h o, Registrations.find? h (f listed) = some o ↔
      Registrations.find? h listed = some o ∧ ¬d.Frees r h) :
    Ledger (d :: log) count (store.modifyRegistry r f) where
  handle o h := by
    simp only [List.mem_cons,(frees _ o h).symm,false_or]
    exact ledger.handle o h
  drawn := ledger.drawn
  unique := ledger.unique
  next := ledger.next
  entries s h o member := by
    rw [Store.registered_modifyRegistry furnished] at member
    split at member
    next same => exact ledger.entries s h o (same ▸ kept _ member)
    next => exact ledger.entries s h o member
  standing s h o := by
    rw [Dealing.stands_cons_iff,← ledger.standing,Store.registered_modifyRegistry furnished]
    simp only [frees,or_false]
    split
    next same =>
      subst same
      exact finds _ h o
    next other =>
      exact (and_iff_left fun freed => other (elsewhere s h freed)).symm

theorem release {r : Registry} {h : Handle} (ledger : Ledger log count store)
    (furnished : r.index < store.registries.size) :
    Ledger (.release r h :: log) count (r.release h store).2 := by
  refine ledger.cut furnished nofun (fun s g freed => freed.1.symm)
    (fun listed => List.filter_sublist.subset) fun listed g o => ?_
  rw [Registrations.find?_erase]
  by_cases same : g = h
  · simp [Dealing.Frees,same]
  · simp [Dealing.Frees,same,Ne.symm same]

theorem clear {r : Registry} (ledger : Ledger log count store)
    (furnished : r.index < store.registries.size) :
    Ledger (.clear r :: log) count (r.clear store) := by
  refine ledger.cut furnished nofun (fun s g freed => freed.symm)
    (fun listed => List.nil_subset _) fun listed g o => ?_
  simp [Dealing.Frees,Registrations.find?]

end Ledger

theorem Request.registry_of_dealing {ctx : Context} {store : Store β} {request : Request β}
    {d : Dealing} (dealt : request.dealing? ctx store = some d) :
    d.registry = ctx.runtime.registry := by
  cases request with
  | newObject name =>
    simp only [dealing?] at dealt
    split at dealt
    · obtain ⟨h,_,rfl⟩ := Option.map_eq_some_iff.mp dealt
      rfl
    · contradiction
  | register | release | clearRegistry | shutdown =>
    obtain rfl := Option.some.inj dealt
    rfl
  | _ => contradiction

namespace Event

/-- The registry that a request is made with is there, and so is the instance that it is to
register. -/
def Grounded : List (Store β) → Event β σ → Prop
  | store :: _, .move (.ask ctx request) =>
    ctx.runtime.registry.index < store.registries.size ∧
      ∀ o, request = .register o → o.index < store.instances.size
  | _, _ => True

variable {w : World β σ} {past : List (Store β)} {e : Event β σ} {d : Dealing}

/-- The counter moves exactly when an instance is entered that has no handle. -/
theorem nextHandle_ne_iff (host : Host β σ) (w : World β σ) (e : Event β σ) :
    (e.perform host w).store.nextHandle ≠ w.store.nextHandle ↔
      ∃ r o h, e.dealing? w = some (.enter r o h) ∧ (w.store.object o).handle = none := by
  obtain ⟨between,alters,deals⟩ := e.acts host w fun _ => False
  have same := alters.sameHandles fun _ => id
  rw [← same.next]
  simp only [← same.handle]
  revert deals
  generalize e.dealing? w = dealing,(e.perform host w).store = later
  intro deals
  cases deals with
  | rest | release | clear => exact iff_of_false (not_not.mpr rfl) (by simp)
  | enter r o =>
    cases held : (between.object o).handle with
    | some h =>
      refine iff_of_false ?_ ?_
      · rw [Registry.register_of_held held]
        exact not_not.mpr rfl
      · rintro ⟨s,p,g,entered,fresh⟩
        obtain ⟨_,rfl,_⟩ := Dealing.enter.inj (Option.some.inj entered)
        rw [held] at fresh
        contradiction
    | none =>
      have moves : between.nextHandle + 1 ≠ between.nextHandle := by simp
      refine iff_of_true ?_ ⟨r,o,_,rfl,held⟩
      rw [Registry.register_of_fresh held]
      exact moves

theorem Grounded.furnished (grounded : e.Grounded (w.store :: past))
    (dealt : e.dealing? w = some d) : d.registry.index < w.store.registries.size := by
  cases e with
  | move m =>
    cases m with
    | enter outer => contradiction
    | ask ctx request =>
      rw [Request.registry_of_dealing dealt]
      exact grounded.1
  | _ => contradiction

theorem Grounded.made {r : Registry} {o : Object} {h : Handle}
    (grounded : e.Grounded (w.store :: past)) (host : Host β σ)
    (dealt : e.dealing? w = some (.enter r o h)) :
    o.index < (e.perform host w).store.instances.size := by
  cases e with
  | move m =>
    cases m with
    | enter outer => contradiction
    | ask ctx request =>
      cases request with
      | register it =>
        obtain ⟨_,rfl,_⟩ := Dealing.enter.inj (Option.some.inj dealt)
        change _ < (ctx.runtime.registry.register it w.store).2.instances.size
        rw [Registry.size_register]
        exact grounded.2 it rfl
      | newObject name =>
        simp only [dealing?,Request.dealing?] at dealt
        split at dealt
        next it later made =>
          obtain ⟨_,_,same⟩ := Option.map_eq_some_iff.mp dealt
          obtain ⟨_,rfl,_⟩ := Dealing.enter.inj same
          change _ < ((ctx.newObject name).run w.store).2.instances.size
          rw [made]
          exact Context.lt_size_of_newObject made
        next => contradiction
      | release | clearRegistry | shutdown => cases Option.some.inj dealt
      | _ => contradiction
  | _ => contradiction

end Event

namespace World

def dealt (host : Host β σ) : List Dealing → World β σ → List (Event β σ) → List Dealing
  | log, _, [] => log
  | log, w, e :: rest => dealt host ((e.dealing? w).toList ++ log) (e.perform host w) rest

def draws (host : Host β σ) : World β σ → List (Event β σ) → Nat
  | _, [] => 0
  | w, e :: rest => w.store.drawn (e.perform host w).store + draws host (e.perform host w) rest

end World

namespace Ledger

variable {host : Host β σ} {w : World β σ} {past : List (Store β)} {log : List Dealing}
  {count : Nat}

theorem step {e : Event β σ} (ledger : Ledger log count w.store)
    (grounded : e.Grounded (w.store :: past))
    (few : count + w.store.drawn (e.perform host w).store < UInt64.size) :
    Ledger ((e.dealing? w).toList ++ log) (count + w.store.drawn (e.perform host w).store)
      (e.perform host w).store := by
  obtain ⟨between,alters,deals⟩ := e.acts host w fun _ => False
  have same := alters.sameHandles fun _ => id
  have ledger := ledger.transfer same
  have drawn : w.store.drawn (e.perform host w).store =
      between.drawn (e.perform host w).store := by
    rw [Store.drawn,Store.drawn,same.next]
  have furnished : ∀ d, e.dealing? w = some d → d.registry.index < between.registries.size :=
    fun d dealt => Nat.lt_of_lt_of_le (grounded.furnished dealt) same.registries
  have made := fun r o h => grounded.made host (r := r) (o := o) (h := h)
  rw [drawn] at few ⊢
  revert deals furnished made few
  generalize e.dealing? w = dealing,(e.perform host w).store = later
  intro few deals furnished made
  cases deals with
  | rest =>
    rw [Store.drawn,if_pos rfl]
    exact ledger
  | enter r o =>
    refine ledger.enter (furnished _ rfl) ?_ few
    have there := made _ _ _ rfl
    rwa [Registry.size_register] at there
  | release r h =>
    have none : between.drawn (r.release h between).2 = 0 := if_pos rfl
    rw [none]
    exact ledger.release (furnished _ rfl)
  | clear r =>
    have none : between.drawn (r.clear between) = 0 := if_pos rfl
    rw [none]
    exact ledger.clear (furnished _ rfl)

theorem series {events : List (Event β σ)} (ledger : Ledger log count w.store)
    (grounded : w.Conforms host Event.Grounded past events)
    (few : count + w.draws host events < UInt64.size) :
    Ledger (w.dealt host log events) (count + w.draws host events)
      (w.replay host events).store := by
  induction events generalizing past w log count with
  | nil => exact ledger
  | cons e rest ih =>
    rw [World.draws,← Nat.add_assoc] at few ⊢
    exact ih (ledger.step grounded.1 (Nat.lt_of_le_of_lt (Nat.le_add_right _ _) few)) grounded.2 few

end Ledger

namespace World

variable {host : Host β σ} {w : World β σ} {past : List (Store β)}

theorem Conforms.left {rule : List (Store β) → Event β σ → Prop} {before after : List (Event β σ)}
    (conforms : Conforms host rule past w (before ++ after)) :
    Conforms host rule past w before := by
  induction before generalizing past w with
  | nil => trivial
  | cons e rest ih => exact ⟨conforms.1,ih conforms.2⟩

theorem draws_le_append (host : Host β σ) (w : World β σ) (before after : List (Event β σ)) :
    w.draws host before ≤ w.draws host (before ++ after) := by
  induction before generalizing w with
  | nil => exact Nat.zero_le _
  | cons e rest ih => exact Nat.add_le_add_left (ih _) _

/-- Handles along every series of events that starts from nothing, on any number of runtimes. As
long as the counter has not come round: different instances have different handles; what a registry
lists under a handle has that handle; the handle of an instance is what each of its registrations
gave, wherever and after whatever it was; only its first registration moves the counter; and
a registry finds an instance under a handle exactly when it was entered there so and the handle has
not been freed there since. -/
theorem handles_settled (host : Host β σ) (state : σ) (events : List (Event β σ))
    (grounded : Conforms host Event.Grounded [] ⟨.empty,state⟩ events)
    (few : draws host ⟨.empty,state⟩ events < UInt64.size) :
    let start : World β σ := ⟨.empty,state⟩
    let store := (start.replay host events).store
    let log := start.dealt host [] events
    (∀ o p h, (store.object o).handle = some h → (store.object p).handle = some h → o = p) ∧
    (∀ r h o, (h,o) ∈ store.registered r → (store.object o).handle = some h) ∧
    (∀ o h, (store.object o).handle = some h ↔ ∃ r, .enter r o h ∈ log) ∧
    (∀ before e after, events = before ++ e :: after →
      ((e.perform host (start.replay host before)).store.nextHandle ≠
          (start.replay host before).store.nextHandle ↔
        ∃ r o h, e.dealing? (start.replay host before) = some (.enter r o h) ∧
          ∀ s g, .enter s o g ∉ start.dealt host [] before)) ∧
    (∀ r h o, r.lookup store h = .ok o ↔ Dealing.Stands r h o log) := by
  intro start store log
  have settled : ∀ events, Conforms host Event.Grounded [] start events →
      draws host start events < UInt64.size →
      Ledger (start.dealt host [] events) (0 + start.draws host events)
        (start.replay host events).store := by
    intro events grounded few
    exact Ledger.empty.series grounded ((Nat.zero_add _).symm ▸ few)
  have ledger := settled events grounded few
  refine ⟨ledger.unique,ledger.entries,ledger.handle,?_,fun r h o => ?_⟩
  · rintro before e after rfl
    have earlier := settled before grounded.left
      (Nat.lt_of_le_of_lt (draws_le_append host start before _) few)
    have fresh : ∀ o, ((start.replay host before).store.object o).handle = none ↔
        ∀ s g, .enter s o g ∉ start.dealt host [] before := by
      intro o
      simp only [Option.eq_none_iff_forall_ne_some,ne_eq,earlier.handle,not_exists]
      exact forall_comm
    simp only [Event.nextHandle_ne_iff,fresh]
  · rw [← ledger.standing,Registry.lookup]
    cases Registrations.find? h (store.registered r) <;> simp

end World

/-! An instance is registered with one runtime, released there and registered with another one;
then an object is made. -/
namespace Lending

def first : Context :=
  Runtime.globalContext { global := ⟨0⟩, registry := ⟨0⟩, maxCallDepth := 1000, evaluator := false }

def second : Context :=
  Runtime.globalContext { global := ⟨1⟩, registry := ⟨1⟩, maxCallDepth := 1000, evaluator := false }

def events : List (Event Unit Unit) :=
  [.found 1000 false,.found 1000 false,
    .move (.ask first (.defineClass { name := "E", modulePath := "m" })),
    .move (.ask first (.instantiate ⟨0⟩)),.move (.ask first (.register ⟨0⟩)),
    .move (.ask first (.release ⟨1⟩)),.move (.ask second (.register ⟨0⟩)),
    .move (.ask first (.newObject "E"))]

def store : Store Unit := ((⟨.empty,()⟩ : World Unit Unit).replay .idle events).store

theorem dealt : World.dealt .idle [] ⟨.empty,()⟩ events =
    [.enter ⟨0⟩ ⟨1⟩ ⟨2⟩,.enter ⟨1⟩ ⟨0⟩ ⟨1⟩,.release ⟨0⟩ ⟨1⟩,.enter ⟨0⟩ ⟨0⟩ ⟨1⟩] := rfl

theorem grounded : World.Conforms .idle Event.Grounded [] ⟨.empty,()⟩ events := by
  have within : ∀ o, Request.register (β := Unit) ⟨0⟩ = .register o → o.index < 1 := by
    rintro o same
    obtain rfl := Request.register.inj same
    decide
  exact ⟨trivial,trivial,⟨by decide,nofun⟩,⟨by decide,nofun⟩,⟨by decide,within⟩,⟨by decide,nofun⟩,
    ⟨by decide,within⟩,⟨by decide,nofun⟩,trivial⟩

end Lending

theorem World.handles_settled_lending :
    (Lending.store.object ⟨0⟩).handle = some ⟨1⟩ ∧
    Registry.lookup ⟨1⟩ Lending.store ⟨1⟩ = .ok ⟨0⟩ ∧
    ∀ o, Registry.lookup ⟨0⟩ Lending.store ⟨1⟩ ≠ .ok o := by
  obtain ⟨_,_,carried,_,found⟩ :=
    handles_settled .idle () Lending.events Lending.grounded (by decide)
  simp only [Lending.dealt] at carried found
  refine ⟨(carried _ _).mpr ⟨⟨1⟩,by simp⟩,(found _ _ _).mpr ?_,fun o here => ?_⟩
  · exact ⟨[.enter ⟨0⟩ ⟨1⟩ ⟨2⟩],_,rfl,by simp [Dealing.Frees]⟩
  · have stands := (found _ _ _).mp here
    simp [Dealing.stands_cons_iff,Dealing.Frees] at stands

end ObjectModel
