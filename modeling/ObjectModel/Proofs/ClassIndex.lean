import ObjectModel.Proofs.Home

/-! How scopes index their classes. Every scope that classes are defined in has each of them under
its simple and its qualified name and under nothing else, so that within one scope no name stands
for two classes. Along a chain of scopes that is not so: a simple name in a nearer scope may spell
the qualified name of a class further out, and a lookup of the latter stops there. A qualified name
leads to its class exactly if no nearer class has it as its simple name, and so always if the class
has a module and the simple names have no dots. -/
namespace ObjectModel

variable {β σ : Type} {home scope : Scope} {store later : Store β} {c d : ClassId}

namespace Scope

/-- The scope has each of its classes under both names, and under no other. -/
structure Indexes (scope : Scope) (store : Store β) : Prop where
  named : ∀ name c, (store.frame scope).classes.get? name = some c →
    name = (store.classOf c).name ∨ name = (store.classOf c).qualifiedName
  simple : ∀ name c, (store.frame scope).classes.get? name = some c →
    (store.frame scope).classes.get? (store.classOf c).name = some c
  qualified : ∀ name c, (store.frame scope).classes.get? name = some c → scope.Registers store c
  allotted : ∀ name c, (store.frame scope).classes.get? name = some c →
    c.index < store.classes.size

theorem Indexes.of_empty (empty : (store.frame scope).classes = .empty) : scope.Indexes store := by
  have unbound : ∀ name, (store.frame scope).classes.get? name = none := by
    intro name
    rw [empty]
    rfl
  constructor <;> intro name c bound
  all_goals simp [unbound name] at bound

/-- A scope whose table stays goes on indexing it while other classes are added. -/
theorem Indexes.of_table (indexes : scope.Indexes store)
    (table : (later.frame scope).classes = (store.frame scope).classes)
    (kept : ∀ c, c.index < store.classes.size →
      c.index < later.classes.size ∧ later.classOf c = store.classOf c) :
    scope.Indexes later := by
  have body : ∀ name c, (later.frame scope).classes.get? name = some c →
      (store.frame scope).classes.get? name = some c ∧ later.classOf c = store.classOf c := by
    intro name c bound
    rw [table] at bound
    exact ⟨bound,(kept c (indexes.allotted name c bound)).2⟩
  refine ⟨fun name c bound => ?_,fun name c bound => ?_,fun name c bound => ?_,
    fun name c bound => ?_⟩
  all_goals obtain ⟨old,same⟩ := body name c bound
  · rw [same]
    exact indexes.named name c old
  · rw [same,table]
    exact indexes.simple name c old
  · rw [Registers,same,table]
    exact indexes.qualified name c old
  · exact (kept c (indexes.allotted name c old)).1

/-- What a name stands for it still stands for when a class is defined, and then it is not one of
the new class. -/
theorem Indexes.kept (indexes : scope.Indexes store) (present : scope.index < store.frames.size)
    {c : Class β} (free : scope.classConflict? store c = none) {name : String}
    (bound : (store.frame scope).classes.get? name = some d) :
    ((scope.adopt store c).frame scope).classes.get? name = some d ∧
      (scope.adopt store c).classOf d = store.classOf d := by
  refine ⟨?_,classOf_adopt_of_lt (indexes.allotted name d bound) c⟩
  rw [get?_adopt present,if_neg]
  · exact bound
  · intro own
    simp [unbound indexes.qualified free own] at bound

theorem Indexes.adopt (indexes : scope.Indexes store) (present : scope.index < store.frames.size)
    {c : Class β} (free : scope.classConflict? store c = none) :
    scope.Indexes (scope.adopt store c) := by
  have table : ∀ name d, ((scope.adopt store c).frame scope).classes.get? name = some d →
      d = (store.addClass c).1 ∧ (name = c.name ∨ name = c.qualifiedName) ∨
      (store.frame scope).classes.get? name = some d := by
    intro name d bound
    rw [get?_adopt present] at bound
    split at bound
    next own => exact .inl ⟨(Option.some.inj bound).symm,own⟩
    next => exact .inr bound
  have body : ∀ name d, (store.frame scope).classes.get? name = some d →
      (scope.adopt store c).classOf d = store.classOf d :=
    fun name d bound => (indexes.kept present free bound).2
  refine ⟨fun name d bound => ?_,fun name d bound => ?_,fun name d bound => ?_,
    fun name d bound => ?_⟩
  all_goals rcases table name d bound with ⟨rfl,own⟩ | old
  · rw [classOf_adopt_self]
    exact own
  · rw [body name d old]
    exact indexes.named name d old
  · rw [classOf_adopt_self,get?_adopt present,if_pos (.inl rfl)]
  · rw [body name d old]
    exact (indexes.kept present free (indexes.simple name d old)).1
  · rw [Registers,classOf_adopt_self,get?_adopt present,if_pos (.inr rfl)]
  · rw [Registers,body name d old]
    exact (indexes.kept present free (indexes.qualified name d old)).1
  · rw [size_adopt]
    exact Nat.lt_succ_self _
  · rw [size_adopt]
    exact Nat.lt_succ_of_lt (indexes.allotted name d old)

end Scope

/-- The moves that build a tree of scopes with classes in them. -/
def Move.Builds : Move β → Prop
  | .enter _ | .ask _ (.defineClass _) => True
  | _ => False

namespace Scope

theorem indexes_perform {host : Host β σ} {w : World β σ} {m : Move β} (builds : m.Builds)
    (indexes : ∀ scope : Scope, scope.Indexes w.store) (scope : Scope) :
    scope.Indexes (m.perform host w).store := by
  cases m with
  | enter outer =>
    exact (indexes scope).of_table (classes_child outer scope) fun c present => ⟨present,rfl⟩
  | ask ctx request =>
    cases request with
    | defineClass c =>
      have stored : (Move.perform host w (.ask ctx (.defineClass c))).store =
          ((ctx.scope.defineClass c).run w.store).2 := rfl
      rw [stored,store_defineClass]
      split
      next free =>
        by_cases here : scope = ctx.scope
        · by_cases present : scope.index < w.store.frames.size
          · subst here
            exact (indexes ctx.scope).adopt present free
          · have absent : (ctx.scope.adopt w.store c).frames.size ≤ scope.index := by
              rw [frames_adopt]
              exact Nat.le_of_not_lt present
            exact .of_empty (by rw [Store.frame_of_size_le absent])
        · refine (indexes scope).of_table ?_ fun d present => ⟨?_,classOf_adopt_of_lt present c⟩
          · rw [frame_adopt_of_ne here]
          · rw [size_adopt]
            exact Nat.lt_succ_of_lt present
      next => exact indexes scope
    | _ => exact False.elim builds

theorem indexes_reaches {host : Host β σ} {start w : World β σ} (blank : start.store.Blank)
    (reached : World.Reaches host (fun _ => Move.Builds) start w) (scope : Scope) :
    scope.Indexes w.store := by
  induction reached generalizing scope with
  | start => exact .of_empty (blank.classless scope)
  | move _ builds ih => exact indexes_perform builds ih scope

theorem lookupClass_past {near far : List Scope} {name : String}
    (chain : store.chain scope = near ++ home :: far)
    (bound : (store.frame home).classes.get? name = some d) :
    scope.lookupClass store name =
      .ok ((near.findSome? fun other => (store.frame other).classes.get? name).getD d) := by
  unfold lookupClass nearest?
  simp only [chain,List.findSome?_append,List.findSome?_cons,bound]
  cases near.findSome? fun other => (store.frame other).classes.get? name <;> rfl

/-- A scope that has no class of a qualified name has the name as a simple one or not at all. -/
theorem Indexes.named_simply (indexes : scope.Indexes store) {name : String}
    (unqualified : ∀ c, scope.Registers store c → (store.classOf c).qualifiedName ≠ name) :
    (store.frame scope).classes.get? name = some c ↔
      scope.Registers store c ∧ (store.classOf c).name = name := by
  constructor
  · intro bound
    have registered := indexes.qualified name c bound
    rcases indexes.named name c bound with simple | qualified
    · exact ⟨registered,simple.symm⟩
    · exact absurd qualified.symm (unqualified c registered)
  · rintro ⟨registered,rfl⟩
    exact indexes.simple _ c registered

end Scope

theorem Class.dot_mem_qualifiedName {c : Class β} (modular : c.modulePath ≠ "") :
    '.' ∈ c.qualifiedName.toList := by
  simp [qualifiedName,qualify,modular]

/-- The nearest class of a qualified name is what the name leads to exactly if no nearer scope has
a class whose simple name is spelled the same, and if one has, the name leads to such a class. So
it leads to every class of a module if the simple names in the nearer scopes have no dots. -/
theorem lookup_qualified_iff {host : Host β σ} {start w : World β σ} {near far : List Scope}
    (blank : start.store.Blank) (reached : World.Reaches host (fun _ => Move.Builds) start w)
    (chain : w.store.chain scope = near ++ home :: far) (registered : home.Registers w.store d)
    (nearest : ∀ other ∈ near, ∀ c, other.Registers w.store c →
      (w.store.classOf c).qualifiedName ≠ (w.store.classOf d).qualifiedName) :
    (scope.lookupClass w.store (w.store.classOf d).qualifiedName = .ok d ↔
      ∀ other ∈ near, ∀ c, other.Registers w.store c →
        (w.store.classOf c).name ≠ (w.store.classOf d).qualifiedName) ∧
    (scope.lookupClass w.store (w.store.classOf d).qualifiedName ≠ .ok d →
      ∃ other ∈ near, ∃ c, other.Registers w.store c ∧
        (w.store.classOf c).name = (w.store.classOf d).qualifiedName ∧
        scope.lookupClass w.store (w.store.classOf d).qualifiedName = .ok c) ∧
    ((w.store.classOf d).modulePath ≠ "" →
      (∀ other ∈ near, ∀ c, other.Registers w.store c →
        '.' ∉ (w.store.classOf c).name.toList) →
      scope.lookupClass w.store (w.store.classOf d).qualifiedName = .ok d) := by
  have indexes := Scope.indexes_reaches blank reached
  have simply : ∀ other ∈ near, ∀ c,
      (w.store.frame other).classes.get? (w.store.classOf d).qualifiedName = some c ↔
        other.Registers w.store c ∧
          (w.store.classOf c).name = (w.store.classOf d).qualifiedName :=
    fun other member c => (indexes other).named_simply (nearest other member)
  rw [Scope.lookupClass_past chain registered]
  cases found : near.findSome? fun other =>
      (w.store.frame other).classes.get? (w.store.classOf d).qualifiedName with
  | none =>
    refine ⟨iff_of_true rfl fun other member c here same => ?_,fun missed => absurd rfl missed,
      fun _ _ => rfl⟩
    have bound := (simply other member c).mpr ⟨here,same⟩
    rw [List.findSome?_eq_none_iff.mp found other member] at bound
    contradiction
  | some c =>
    obtain ⟨other,member,bound⟩ := List.exists_of_findSome?_eq_some found
    obtain ⟨here,same⟩ := (simply other member c).mp bound
    have apart : c ≠ d := by
      rintro rfl
      exact nearest other member c here rfl
    refine ⟨iff_of_false (fun led => apart (Except.ok.inj led)) fun unnamed => ?_,
      fun _ => ⟨other,member,c,here,same,rfl⟩,fun modular undotted => ?_⟩
    · exact unnamed other member c here same
    · exact absurd (same ▸ Class.dot_mem_qualifiedName modular) (undotted other member c here)

/-! Two classes in the global scope, one of them in no module, and a class of the same simple name
in a scope inside. -/
namespace Namesake

def inner : Scope := ⟨1⟩

def moves : List (Move Unit) :=
  [.ask Runtime.first.globalContext (.defineClass { name := "A" }),
    .ask Runtime.first.globalContext (.defineClass { name := "B", modulePath := "m" }),
    .enter Runtime.first.global,
    .ask { runtime := .first, scope := inner } (.defineClass { name := "A", modulePath := "k" })]

def world : World Unit Unit := World.first.play .idle moves

theorem reached : World.Reaches .idle (fun _ => Move.Builds) .first world :=
  World.Reaches.start.play ⟨trivial,trivial,trivial,trivial,trivial⟩

theorem eq_of_registers (registered : inner.Registers world.store c) : c = ⟨2⟩ := by
  have entries : (world.store.frame inner).classes.entries = [("k.A",⟨2⟩),("A",⟨2⟩)] := rfl
  simp only [Scope.Registers,Table.get?,entries,Table.lookup] at registered
  split at registered
  · exact (Option.some.inj registered).symm
  · split at registered
    · exact (Option.some.inj registered).symm
    · contradiction

theorem unqualified (name : String) (apart : "k.A" ≠ name) :
    ∀ other ∈ [inner], ∀ c, other.Registers world.store c →
      (world.store.classOf c).qualifiedName ≠ name := by
  intro other member c registered
  obtain rfl := List.mem_singleton.mp member
  obtain rfl := eq_of_registers registered
  exact apart

end Namesake

theorem lookup_qualified_iff_namesake :
    Namesake.inner.lookupClass Namesake.world.store "m.B" = .ok ⟨1⟩ ∧
    Namesake.inner.lookupClass Namesake.world.store "A" ≠ .ok ⟨0⟩ := by
  have modular := lookup_qualified_iff (d := ⟨1⟩) (.create defaultCallDepth false)
    Namesake.reached (show _ = [Namesake.inner] ++ Runtime.first.global :: [] from rfl) rfl
    (Namesake.unqualified "m.B" (by decide))
  have bare := lookup_qualified_iff (d := ⟨0⟩) (.create defaultCallDepth false)
    Namesake.reached (show _ = [Namesake.inner] ++ Runtime.first.global :: [] from rfl) rfl
    (Namesake.unqualified "A" (by decide))
  refine ⟨modular.2.2 (by decide) fun other member c registered => ?_,fun found => ?_⟩
  · obtain rfl := List.mem_singleton.mp member
    obtain rfl := Namesake.eq_of_registers registered
    decide
  · exact bare.1.mp found Namesake.inner List.mem_cons_self ⟨2⟩ rfl rfl

/-- The nearest class whose qualified name is asked for is not the one that is found. -/
theorem qualified_name_shadowed :
    World.Reaches .idle (fun _ => Move.Builds) .first Namesake.world ∧
    Namesake.world.store.chain Namesake.inner =
      [Namesake.inner] ++ Runtime.first.global :: [] ∧
    Runtime.first.global.Registers Namesake.world.store ⟨0⟩ ∧
    (∀ other ∈ [Namesake.inner], ∀ c, other.Registers Namesake.world.store c →
      (Namesake.world.store.classOf c).qualifiedName ≠
        (Namesake.world.store.classOf ⟨0⟩).qualifiedName) ∧
    Namesake.inner.lookupClass Namesake.world.store
      (Namesake.world.store.classOf ⟨0⟩).qualifiedName = .ok ⟨2⟩ :=
  ⟨Namesake.reached,rfl,rfl,Namesake.unqualified "A" (by decide),rfl⟩

end ObjectModel
