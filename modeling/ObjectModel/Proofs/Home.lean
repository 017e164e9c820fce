import ObjectModel.Proofs.History
import ObjectModel.Proofs.Recording

/-! Histories that keep all their classes in one scope, called home. Every scope inside it finds
the same classes under the same names. Whatever happens in such a history comes down to five kinds
of changes of the store, and each of them leaves the classes registered so far, the entries of the
memo and the instances in place. -/
namespace ObjectModel

variable {β σ : Type} {home scope : Scope} {store later : Store β} {c d : ClassId}

namespace Scope

def Registers (home : Scope) (store : Store β) (c : ClassId) : Prop :=
  (store.frame home).classes.get? (store.classOf c).qualifiedName = some c

/-- The moves that keep all classes at home. Classes are defined there and used from there and
from the scopes inside; the parents of a class may be replaced only if the history says so. -/
def Admits (home : Scope) (definable : Class β → Prop) (reparenting : Prop) (store : Store β) :
    Move β → Prop
  | .enter _ => True
  | .ask ctx (.defineClass c) => ctx.scope = home ∧ definable c
  | .ask _ (.setParents c _) => reparenting ∧ home.Registers store c
  | .ask ctx (.linearize c) => home ∈ store.chain ctx.scope ∧ home.Registers store c
  | .ask ctx (.resolve c _ _) => home ∈ store.chain ctx.scope ∧ home.Registers store c
  | .ask ctx (.instantiate c) => home ∈ store.chain ctx.scope ∧ home.Registers store c
  | _ => False

theorem Registers.unique (first : home.Registers store c) (second : home.Registers store d)
    (same : (store.classOf c).qualifiedName = (store.classOf d).qualifiedName) : c = d := by
  rw [Registers,same] at first
  exact Option.some.inj (first.symm.trans second)

/-- No other scope has a class, and home has each of its classes under the qualified name. -/
structure Houses (home : Scope) (store : Store β) : Prop where
  present : home.index < store.frames.size
  alone : ∀ other, other ≠ home → (store.frame other).classes = .empty
  registers : ∀ name c, (store.frame home).classes.get? name = some c → home.Registers store c
  allotted : ∀ name c, (store.frame home).classes.get? name = some c →
    c.index < store.classes.size

theorem Houses.lt_size (houses : home.Houses store) (registered : home.Registers store c) :
    c.index < store.classes.size :=
  houses.allotted _ c registered

theorem self_mem_chain (scope : Scope) (store : Store β) : scope ∈ store.chain scope :=
  List.mem_cons_self

theorem Houses.nearest (houses : home.Houses store) (inside : home ∈ store.chain scope)
    (name : String) :
    scope.nearest? store (·.classes.get? name) = (store.frame home).classes.get? name := by
  unfold nearest?
  generalize store.chain scope = chain at inside
  induction chain with
  | nil => simp at inside
  | cons first rest ih =>
    simp only [List.findSome?_cons]
    by_cases same : first = home
    · subst same
      cases found : (store.frame first).classes.get? name with
      | some c => rfl
      | none =>
        refine List.findSome?_eq_none_iff.mpr fun other _ => ?_
        by_cases again : other = first
        · simpa [again] using found
        · simp only [houses.alone other again]
          rfl
    · have inside : home ∈ rest := by simpa [Ne.symm same] using inside
      simp only [houses.alone first same]
      exact ih inside

theorem Houses.lookupClass (houses : home.Houses store) (inside : home ∈ store.chain scope)
    (name : String) : scope.lookupClass store name = home.lookupClass store name := by
  unfold Scope.lookupClass
  rw [houses.nearest inside,houses.nearest (self_mem_chain home store)]

theorem Houses.lookupClass_eq_ok_iff (houses : home.Houses store) {name : String} :
    home.lookupClass store name = .ok c ↔ (store.frame home).classes.get? name = some c := by
  unfold Scope.lookupClass
  rw [houses.nearest (self_mem_chain home store)]
  cases (store.frame home).classes.get? name <;> simp

theorem Houses.registers_of_lookup (houses : home.Houses store)
    (inside : home ∈ store.chain scope) {name : String}
    (found : scope.lookupClass store name = .ok c) : home.Registers store c := by
  rw [houses.lookupClass inside] at found
  exact houses.registers name c (houses.lookupClass_eq_ok_iff.mp found)

theorem Houses.lookup_of_registers (houses : home.Houses store)
    (inside : home ∈ store.chain scope) (registered : home.Registers store c) :
    scope.lookupClass store (store.classOf c).qualifiedName = .ok c := by
  rw [houses.lookupClass inside]
  exact houses.lookupClass_eq_ok_iff.mpr registered

theorem Houses.linearization (houses : home.Houses store) (inside : home ∈ store.chain scope)
    (c : ClassId) : (c.linearization scope).run store = (c.linearization home).run store := by
  have same := ClassId.computeOrder_congr (houses.lookupClass inside) (fun _ => ⟨rfl,rfl⟩)
    (store.classes.size + 1)
  simp only [ClassId.linearization,Action.run,same]

theorem Houses.inherits {rows : List (ClassId × List String)} {order : List String}
    (houses : home.Houses store) (inside : home ∈ store.chain scope)
    (inherits : Inherits store scope c rows order) : Inherits store home c rows order := by
  refine ⟨?_,inherits.merged⟩
  rw [← inherits.found]
  exact List.map_congr_left fun name _ => (houses.lookupClass inside name).symm

def adopt (home : Scope) (store : Store β) (c : Class β) : Store β :=
  (store.addClass c).2.modifyFrame home fun frame =>
    { frame with
      classes := (frame.classes.insert c.qualifiedName (store.addClass c).1).insert c.name
        (store.addClass c).1 }

theorem size_adopt (home : Scope) (store : Store β) (c : Class β) :
    (home.adopt store c).classes.size = store.classes.size + 1 :=
  Arena.size_push store.classes c

theorem frames_adopt (home : Scope) (store : Store β) (c : Class β) :
    (home.adopt store c).frames.size = store.frames.size :=
  Arena.size_modify store.frames home.index _

theorem run_defineClass (home : Scope) (store : Store β) (c : Class β) :
    (home.defineClass c).run store =
      match home.classConflict? store c with
      | none => (.ok (store.addClass c).1,home.adopt store c)
      | some e => (.error e,store) := by
  rw [defineClass,Action.run_bind,Action.run_get]
  cases conflict : home.classConflict? store c with
  | none => simp [conflict,adopt,Action.run_bind]
  | some e => simp [conflict]

theorem store_defineClass (home : Scope) (store : Store β) (c : Class β) :
    ((home.defineClass c).run store).2 =
      if home.classConflict? store c = none then home.adopt store c else store := by
  rw [run_defineClass]
  cases home.classConflict? store c <;> simp

theorem get?_adopt (present : home.index < store.frames.size) (c : Class β) (name : String) :
    ((home.adopt store c).frame home).classes.get? name =
      if name = c.name ∨ name = c.qualifiedName then some (store.addClass c).1
      else (store.frame home).classes.get? name := by
  unfold adopt
  rw [Store.frame_modifyFrame_self (by exact present)]
  simp only
  by_cases simple : name = c.name
  · simp [simple]
  · rw [Table.get?_insert_of_ne simple]
    by_cases qualified : name = c.qualifiedName
    · simp [qualified]
    · rw [Table.get?_insert_of_ne qualified,if_neg (by simp [simple,qualified])]
      rfl

/-- A class without a conflict takes names that stood for nothing, if the classes that are there
stand under their qualified names. -/
theorem unbound (registers : ∀ name d, (store.frame home).classes.get? name = some d →
      home.Registers store d) {c : Class β} {name : String}
    (free : home.classConflict? store c = none) (own : name = c.name ∨ name = c.qualifiedName) :
    (store.frame home).classes.get? name = none := by
  have qualified : (store.frame home).classes.get? c.qualifiedName = none := by
    by_contra bound
    simp [classConflict?,Table.contains,Option.isSome_iff_ne_none,bound] at free
  rcases own with rfl | rfl
  · cases simple : (store.frame home).classes.get? c.name with
    | none => rfl
    | some existing =>
      have registered := registers c.name existing simple
      simp only [classConflict?,Table.contains,qualified,simple] at free
      split at free
      · contradiction
      · rename_i same
        split at free
        · rename_i equal
          rw [Registers,equal,qualified] at registered
          contradiction
        · contradiction
  · exact qualified

end Scope

/-- The kinds of changes that histories at home are made of. -/
inductive Change (home : Scope) (definable : Class β → Prop) (reparenting : Prop)
    (store : Store β) : Store β → Prop where
  | enter (outer : Scope) : Change home definable reparenting store (store.child outer).2
  | define (c : Class β) (sound : definable c) (free : home.classConflict? store c = none) :
      Change home definable reparenting store (home.adopt store c)
  | reparent (c : ClassId) (parents : List String) (allowed : reparenting)
      (registered : home.Registers store c) :
      Change home definable reparenting store
        (store.modifyClass c fun it => { it with parents })
  | record {scope : Scope} {memo : Memo} (inside : home ∈ store.chain scope)
      (step : Records store scope (home.Registers store) store.memo memo) :
      Change home definable reparenting store { store with memo }
  | create {scope : Scope} {c : ClassId} {hierarchy : List String} {members : Table Variable}
      (inside : home ∈ store.chain scope) (registered : home.Registers store c)
      (recorded : store.memo.get? c = some hierarchy)
      (laid : ClassId.layout store scope c hierarchy.reverse .empty = .ok members) :
      Change home definable reparenting store
        (store.addObject { definition := c, scope := some scope, hierarchy, members }).2

variable {definable : Class β → Prop} {reparenting : Prop}

namespace Scope

theorem frame_adopt_of_ne {other : Scope} (apart : other ≠ home) (c : Class β) :
    (home.adopt store c).frame other = store.frame other :=
  Store.frame_modifyFrame_of_ne apart (store.addClass c).2 _

theorem classOf_adopt_of_lt (old : c.index < store.classes.size) (added : Class β) :
    (home.adopt store added).classOf c = store.classOf c :=
  Store.classOf_addClass_of_lt old added

theorem classOf_adopt_self (added : Class β) :
    (home.adopt store added).classOf (store.addClass added).1 = added :=
  Store.classOf_addClass_self store added

theorem Houses.adopt (houses : home.Houses store) {c : Class β}
    (free : home.classConflict? store c = none) : home.Houses (home.adopt store c) := by
  refine ⟨?_,fun other apart => ?_,fun name d bound => ?_,fun name d bound => ?_⟩
  · rw [frames_adopt]
    exact houses.present
  · rw [frame_adopt_of_ne apart]
    exact houses.alone other apart
  · rw [get?_adopt houses.present] at bound
    rw [Registers,get?_adopt houses.present]
    split at bound
    · obtain rfl := Option.some.inj bound
      simp [classOf_adopt_self]
    · have registered := houses.registers name d bound
      rw [classOf_adopt_of_lt (houses.allotted name d bound)]
      have distinct : ¬((store.classOf d).qualifiedName = c.name ∨
          (store.classOf d).qualifiedName = c.qualifiedName) := by
        intro own
        have unbound := Scope.unbound houses.registers free own
        rw [registered] at unbound
        contradiction
      rw [if_neg distinct]
      exact registered
  · rw [get?_adopt houses.present] at bound
    rw [size_adopt]
    split at bound
    · obtain rfl := Option.some.inj bound
      exact Nat.lt_succ_self _
    · exact Nat.lt_succ_of_lt (houses.allotted name d bound)

theorem classes_child (outer other : Scope) :
    ((store.child outer).2.frame other).classes = (store.frame other).classes := by
  by_cases opened : other.index = store.frames.size
  · obtain rfl : other = (store.child outer).1 := congrArg Scope.mk opened
    rw [Store.frame_child_self,Store.frame_of_size_le (Nat.le_of_eq opened.symm)]
  · rw [Store.frame_child_of_ne opened]

theorem Houses.frame_child (houses : home.Houses store) (outer : Scope) :
    (store.child outer).2.frame home = store.frame home :=
  Store.frame_child_of_ne (Nat.ne_of_lt houses.present) outer

theorem Houses.enter (houses : home.Houses store) (outer : Scope) :
    home.Houses (store.child outer).2 := by
  have same := houses.frame_child outer
  refine ⟨?_,fun other apart => ?_,fun name d bound => ?_,fun name d bound => ?_⟩
  · have grown : (store.child outer).2.frames.size = store.frames.size + 1 :=
      Arena.size_push store.frames _
    rw [grown]
    exact Nat.lt_succ_of_lt houses.present
  · rw [classes_child]
    exact houses.alone other apart
  · rw [same] at bound
    rw [Registers,same]
    exact houses.registers name d bound
  · rw [same] at bound
    exact houses.allotted name d bound

theorem Houses.congr (houses : home.Houses store) (frames : later.frames = store.frames)
    (classes : later.classes = store.classes) : home.Houses later := by
  cases store
  cases later
  subst frames classes
  exact ⟨houses.present,houses.alone,houses.registers,houses.allotted⟩

theorem classOf_reparent (c : ClassId) (parents : List String)
    (present : d.index < store.classes.size) :
    ∃ declared, (store.modifyClass c fun it => { it with parents }).classOf d =
      { store.classOf d with parents := declared } := by
  by_cases same : d = c
  · subst same
    exact ⟨parents,Store.classOf_modifyClass_self present _⟩
  · exact ⟨(store.classOf d).parents,Store.classOf_modifyClass_of_ne same store _⟩

theorem Houses.change (houses : home.Houses store)
    (change : Change home definable reparenting store later) : home.Houses later := by
  cases change with
  | enter outer => exact houses.enter outer
  | define c sound free => exact houses.adopt free
  | reparent c parents allowed registered =>
    refine ⟨houses.present,houses.alone,fun name d bound => ?_,fun name d bound => ?_⟩
    · obtain ⟨declared,body⟩ := classOf_reparent c parents (houses.allotted name d bound)
      rw [Registers,body]
      exact houses.registers name d bound
    · rw [Store.size_modifyClass]
      exact houses.allotted name d bound
  | record | create => exact houses.congr rfl rfl

end Scope

/-- What a history at home never takes back. -/
structure Evolves (home : Scope) (store later : Store β) : Prop where
  table : ∀ name c, (store.frame home).classes.get? name = some c →
    (later.frame home).classes.get? name = some c
  body : ∀ c, c.index < store.classes.size →
    c.index < later.classes.size ∧ ∃ declared, later.classOf c =
      { store.classOf c with parents := declared }
  memo : store.memo.Extends later.memo
  chain : ∀ scope, home ∈ store.chain scope → home ∈ later.chain scope
  objects : ∀ o, o.index < store.instances.size →
    o.index < later.instances.size ∧ later.object o = store.object o

namespace Evolves

theorem refl (home : Scope) (store : Store β) : Evolves home store store where
  table _ _ bound := bound
  body c present := ⟨present,(store.classOf c).parents,rfl⟩
  memo _ _ known := known
  chain _ inside := inside
  objects _ present := ⟨present,rfl⟩

theorem trans {last : Store β} (first : Evolves home store later)
    (second : Evolves home later last) : Evolves home store last where
  table name c bound := second.table name c (first.table name c bound)
  body c present := by
    obtain ⟨between,declared,body⟩ := first.body c present
    obtain ⟨after,again,same⟩ := second.body c between
    exact ⟨after,again,by rw [same,body]⟩
  memo c order known := second.memo c order (first.memo c order known)
  chain scope inside := second.chain scope (first.chain scope inside)
  objects o present := by
    obtain ⟨between,same⟩ := first.objects o present
    obtain ⟨after,again⟩ := second.objects o between
    exact ⟨after,again.trans same⟩

theorem qualifiedName (evolves : Evolves home store later)
    (present : c.index < store.classes.size) :
    (later.classOf c).qualifiedName = (store.classOf c).qualifiedName := by
  obtain ⟨_,declared,body⟩ := evolves.body c present
  rw [body]
  rfl

theorem registers (evolves : Evolves home store later) (houses : home.Houses store)
    (registered : home.Registers store c) : home.Registers later c := by
  rw [Scope.Registers,evolves.qualifiedName (houses.lt_size registered)]
  exact evolves.table _ c registered

end Evolves

theorem Scope.chain_enter (houses : home.Houses store) (outer : Scope)
    (inside : home ∈ store.chain scope) : home ∈ (store.child outer).2.chain scope := by
  by_cases opened : scope.index = store.frames.size
  · -- A scope not opened yet has nothing around it, and it is not home.
    have unopened := Store.frame_of_size_le (Nat.le_of_eq opened.symm)
    have itself : home = scope := by simpa [Store.chain,unopened] using inside
    have present := houses.present
    rw [itself,opened] at present
    exact absurd present (Nat.lt_irrefl _)
  · unfold Store.chain at inside ⊢
    rw [Store.frame_child_of_ne opened]
    exact inside

theorem Change.evolves (houses : home.Houses store)
    (change : Change home definable reparenting store later) : Evolves home store later := by
  have same := Evolves.refl home store
  cases change with
  | enter outer =>
    refine { same with table := fun name c bound => ?_, chain := fun scope inside => ?_ }
    · rw [houses.frame_child]
      exact bound
    · exact Scope.chain_enter houses outer inside
  | define c sound free =>
    refine { same with
      table := fun name d bound => ?_, body := fun d present => ?_
      chain := fun scope inside => ?_ }
    · rw [Scope.get?_adopt houses.present,if_neg ?_]
      · exact bound
      · intro own
        have unbound := Scope.unbound houses.registers free own
        rw [bound] at unbound
        contradiction
    · rw [Scope.size_adopt]
      have same : (home.adopt store c).classOf d = store.classOf d :=
        Scope.classOf_adopt_of_lt present c
      exact ⟨Nat.lt_succ_of_lt present,(store.classOf d).parents,same⟩
    · unfold Store.chain at inside ⊢
      by_cases itself : scope = home
      · simp [itself]
      · rw [Scope.frame_adopt_of_ne itself]
        exact inside
  | reparent c parents allowed registered =>
    refine { same with body := fun d present => ?_ }
    rw [Store.size_modifyClass]
    exact ⟨present,Scope.classOf_reparent c parents present⟩
  | record inside step => exact { same with memo := step.extends }
  | create inside registered recorded laid =>
    refine { same with objects := fun o present => ⟨?_,Store.object_addObject_of_lt present _⟩ }
    exact Nat.lt_of_lt_of_eq (Nat.lt_succ_of_lt present) (Arena.size_push store.instances _).symm

theorem Change.classOf_eq (fixed : ¬reparenting)
    (change : Change home definable reparenting store later)
    (present : c.index < store.classes.size) :
    later.classOf c = store.classOf c := by
  cases change with
  | define added => exact Scope.classOf_adopt_of_lt present added
  | reparent _ _ allowed => exact absurd allowed fixed
  | enter | record | create => rfl

theorem ClassId.store_instantiate (c : ClassId) (scope : Scope) (store : Store β) :
    ((c.instantiate scope).run store).2 =
      match ((c.linearization scope).run store).1 with
      | .error _ => ((c.linearization scope).run store).2
      | .ok hierarchy =>
        match ClassId.layout ((c.linearization scope).run store).2 scope c hierarchy.reverse
            .empty with
        | .error _ => ((c.linearization scope).run store).2
        | .ok members =>
          (((c.linearization scope).run store).2.addObject
            { definition := c, scope := some scope, hierarchy, members }).2 := by
  simp only [ClassId.instantiate,Action.run_bind,Action.run_read,Action.run_update]
  rcases (c.linearization scope).run store with ⟨_ | hierarchy,next⟩
  · rfl
  · simp only
    cases ClassId.layout next scope c hierarchy.reverse .empty <;> rfl

/-- Entries are changes. None of them moves a class, so those made later see the same scopes. -/
theorem changes_of_records {memo : Memo} (inside : home ∈ store.chain scope)
    (steps : Relation.ReflTransGen (Records store scope (home.Registers store)) store.memo memo) :
    Relation.ReflTransGen (Change home definable reparenting) store { store with memo } := by
  induction steps with
  | refl => exact .refl
  | @tail before after _ step ih =>
    obtain ⟨reached,fresh,inherits,known⟩ := step
    exact ih.tail (.record inside (.entry reached fresh (inherits.withMemo before) known))

namespace Scope

theorem Houses.changes_linearization (houses : home.Houses store)
    (inside : home ∈ store.chain scope) (registered : home.Registers store c) :
    Relation.ReflTransGen (Change home definable reparenting) store
      ((c.linearization scope).run store).2 :=
  changes_of_records inside (ClassId.linearization_records
    (fun _ _ found => houses.registers_of_lookup inside found) c registered).1

theorem Houses.recorded (houses : home.Houses store) (inside : home ∈ store.chain scope)
    (registered : home.Registers store c) {order : List String}
    (success : ((c.linearization scope).run store).1 = .ok order) :
    ((c.linearization scope).run store).2.memo.get? c = some order :=
  (ClassId.linearization_records
    (fun _ _ found => houses.registers_of_lookup inside found) c registered).2 order success

theorem Houses.changes_instantiate (houses : home.Houses store)
    (inside : home ∈ store.chain scope) (registered : home.Registers store c) :
    Relation.ReflTransGen (Change home definable reparenting) store
      ((c.instantiate scope).run store).2 := by
  have changes : Relation.ReflTransGen (Change home definable reparenting) store
      ((c.linearization scope).run store).2 := houses.changes_linearization inside registered
  rw [ClassId.store_instantiate]
  cases success : ((c.linearization scope).run store).1 with
  | error e => exact changes
  | ok hierarchy =>
    simp only
    cases laid : ClassId.layout ((c.linearization scope).run store).2 scope c hierarchy.reverse
        .empty with
    | error e => exact changes
    | ok members =>
      exact changes.tail
        (.create inside registered (houses.recorded inside registered success) laid)

theorem Admits.changes {host : Host β σ} {w : World β σ} {m : Move β}
    (admitted : home.Admits definable reparenting w.store m) (houses : home.Houses w.store) :
    Relation.ReflTransGen (Change home definable reparenting) w.store (m.perform host w).store := by
  cases m with
  | enter outer => exact .single (.enter outer)
  | ask ctx request =>
    cases request with
    | defineClass c =>
      obtain ⟨here,sound⟩ := admitted
      have stored : (Move.perform host w (.ask ctx (.defineClass c))).store =
          ((home.defineClass c).run w.store).2 := by rw [← here]; rfl
      rw [stored,store_defineClass]
      split
      · rename_i free
        exact .single (.define c sound free)
      · exact .refl
    | setParents c parents => exact .single (.reparent c parents admitted.1 admitted.2)
    | linearize c => exact houses.changes_linearization admitted.1 admitted.2
    | resolve c name caller =>
      have stored : (Move.perform host w (.ask ctx (.resolve c name caller))).store =
          ((c.linearization ctx.scope).run w.store).2 :=
        ClassId.store_resolve host.supply c ctx.scope name caller w
      rw [stored]
      exact houses.changes_linearization admitted.1 admitted.2
    | instantiate c => exact houses.changes_instantiate admitted.1 admitted.2
    | _ => exact False.elim admitted

theorem Houses.changes {invariant : Store β → Prop} (houses : home.Houses store)
    (kept : ∀ store later : Store β, home.Houses store →
      Change home definable reparenting store later → invariant store → invariant later)
    (holds : invariant store)
    (changes : Relation.ReflTransGen (Change home definable reparenting) store later) :
    home.Houses later ∧ invariant later := by
  induction changes with
  | refl => exact ⟨houses,holds⟩
  | tail _ change ih => exact ⟨ih.1.change change,kept _ _ ih.1 change ih.2⟩

/-- A step invariant is a run invariant: what each change at home carries on holds in every
world that the history reaches. -/
theorem Houses.reaches {invariant : Store β → Prop} {host : Host β σ} {start w : World β σ}
    (houses : home.Houses start.store)
    (kept : ∀ store later : Store β, home.Houses store →
      Change home definable reparenting store later → invariant store → invariant later)
    (holds : invariant start.store)
    (reached : World.Reaches host (home.Admits definable reparenting) start w) :
    home.Houses w.store ∧ invariant w.store := by
  induction reached with
  | start => exact ⟨houses,holds⟩
  | move _ admitted ih => exact ih.1.changes kept ih.2 (admitted.changes ih.1)

theorem Houses.evolves {host : Host β σ} {start w : World β σ} (houses : home.Houses start.store)
    (reached : World.Reaches host (home.Admits definable reparenting) start w) :
    Evolves home start.store w.store :=
  (houses.reaches (fun _ _ between change grown => grown.trans (change.evolves between))
    (.refl home start.store) reached).2

end Scope

/-- Scopes may exist and hold variables and functions, but there are no classes yet. -/
structure Store.Blank (store : Store β) : Prop where
  classless : ∀ scope, (store.frame scope).classes = .empty
  unrecorded : store.memo = []
  uninhabited : store.instances.size = 0

theorem Store.Blank.houses (blank : store.Blank) (present : home.index < store.frames.size) :
    home.Houses store where
  present := present
  alone other _ := blank.classless other
  registers name c bound := by
    rw [blank.classless] at bound
    contradiction
  allotted name c bound := by
    rw [blank.classless] at bound
    contradiction

theorem Store.Blank.create (maxCallDepth : Nat) (evaluator : Bool) :
    (Runtime.create maxCallDepth evaluator (.empty : Store β)).2.Blank where
  classless scope := by
    have single : (Runtime.create maxCallDepth evaluator (.empty : Store β)).2.frame scope =
        (Arena.empty.push {}).get scope.index := rfl
    rw [single]
    by_cases global : scope.index = 0
    · rw [global]
      rfl
    · rw [Arena.get_push_of_ne global]
      rfl
  unrecorded := rfl
  uninhabited := rfl

/-! A class with two children and a class under both, used from their own scope and from one
inside it. One of the children keeps to itself what it takes over from the top. -/
namespace Diamond

def runtime : Runtime := (Runtime.create defaultCallDepth false (.empty : Store Unit)).1

def start : World Unit Unit := ⟨(Runtime.create defaultCallDepth false .empty).2,()⟩

def global : Scope := runtime.global

def inner : Scope := ⟨1⟩

def method : Function Unit := { name := "RUN", body := .native () }

def member : Variable := .dynamic "X" (.integer 1)

def top : Class Unit :=
  (Class.declareVariable { name := "A", modulePath := "m" } member).declareFunction method .shown

def left : Class Unit :=
  (Class.declareVariable { name := "B", modulePath := "m", parents := ["A"] }
    member.hide).declareFunction method .hidden

def right : Class Unit := { name := "C", modulePath := "m", parents := ["m.A"] }

def bottom : Class Unit := { name := "D", modulePath := "m", parents := ["B","C"] }

def moves : List (Move Unit) :=
  [.ask { runtime, scope := global } (.defineClass top),
    .ask { runtime, scope := global } (.defineClass left),
    .ask { runtime, scope := global } (.defineClass right),
    .ask { runtime, scope := global } (.defineClass bottom),
    .enter global,
    .ask { runtime, scope := inner } (.linearize ⟨3⟩),
    .ask { runtime, scope := global } (.instantiate ⟨3⟩),
    .ask { runtime, scope := inner } (.instantiate ⟨0⟩)]

def world : World Unit Unit := start.play .idle moves

theorem reached {definable : Class Unit → Prop} (reparenting : Prop)
    (sound : definable top ∧ definable left ∧ definable right ∧ definable bottom) :
    World.Reaches .idle (global.Admits definable reparenting) start world := by
  have permitted : World.Permits .idle (global.Admits definable reparenting) start moves := by
    obtain ⟨first,second,third,fourth⟩ := sound
    refine ⟨⟨rfl,first⟩,⟨rfl,second⟩,⟨rfl,third⟩,⟨rfl,fourth⟩,trivial,?_⟩
    refine ⟨⟨?_,rfl⟩,⟨?_,rfl⟩,⟨?_,rfl⟩,trivial⟩
    all_goals decide
  exact World.Reaches.start.play permitted

end Diamond
end ObjectModel
