import Mathlib.Data.String.Basic
import ObjectModel.Proofs.ClassIndex

/-! The class table of a scope. Classes are defined in it one after another, some with success. A
class that is accepted takes two names that stood for nothing, so the table never comes to lead
elsewhere from a name: it has each class that was accepted under both of its names, and nothing
else, and the listing has their qualified names in strictly ascending order. -/
namespace ObjectModel

variable {β : Type}

/-! Listings. -/

theorem mem_insertName {name other : String} {names : List String} :
    other ∈ insertName name names ↔ other = name ∨ other ∈ names := by
  induction names with
  | nil => simp [insertName]
  | cons first rest ih =>
    simp only [insertName]
    split
    · simp
    · split
      · simp only [List.mem_cons,ih]
        exact or_left_comm
      · rename_i least greatest
        obtain rfl : name = first := le_antisymm (not_lt.mp greatest) (not_lt.mp least)
        simp

theorem ascending_insertName {name : String} {names : List String}
    (ascending : names.Pairwise (· < ·)) : (insertName name names).Pairwise (· < ·) := by
  induction names with
  | nil => simp [insertName]
  | cons first rest ih =>
    obtain ⟨before,others⟩ := List.pairwise_cons.mp ascending
    simp only [insertName]
    split
    next least =>
      refine List.pairwise_cons.mpr ⟨fun other member => ?_,ascending⟩
      rcases List.mem_cons.mp member with rfl | later
      · exact least
      · exact lt_trans least (before other later)
    next =>
      split
      next behind =>
        refine List.pairwise_cons.mpr ⟨fun other member => ?_,ih others⟩
        rcases mem_insertName.mp member with rfl | later
        · exact behind
        · exact before other later
      next => exact ascending

theorem mem_sortNames {name : String} {names : List String} :
    name ∈ sortNames names ↔ name ∈ names := by
  induction names with
  | nil => rfl
  | cons first rest ih =>
    rw [List.mem_cons,← ih]
    exact mem_insertName

theorem ascending_sortNames (names : List String) : (sortNames names).Pairwise (· < ·) := by
  induction names with
  | nil => exact .nil
  | cons first rest ih => exact ascending_insertName ih

theorem Table.mem_values_iff {α : Type} {t : Table α} {value : α} (distinct : t.names.Nodup) :
    value ∈ t.values ↔ ∃ name, t.get? name = some value := by
  refine ⟨fun member => ?_,fun ⟨_,found⟩ => mem_values_of_get? found⟩
  obtain ⟨⟨name,_⟩,entry,rfl⟩ := List.mem_map.mp member
  exact ⟨name,get?_of_mem distinct entry⟩

namespace Scope

variable {scope : Scope} {store : Store β}

/-- Defines classes one after another. Those that are accepted are given, each with the identity
that it got, and the store at the end. -/
def enroll (scope : Scope) (store : Store β) :
    List (Class β) → List (ClassId × Class β) × Store β
  | [] => ([],store)
  | c :: rest =>
    match (scope.defineClass c).run store with
    | (.error _,later) => scope.enroll later rest
    | (.ok id,later) => ((id,c) :: (scope.enroll later rest).1,(scope.enroll later rest).2)

/-- The table of the scope is made of these classes, none of them twice. -/
structure Lists (scope : Scope) (store : Store β) (enrolled : List (ClassId × Class β)) : Prop where
  present : scope.index < store.frames.size
  indexes : scope.Indexes store
  distinct : (store.frame scope).classes.names.Nodup
  bound : ∀ id c, (id,c) ∈ enrolled → store.classOf id = c ∧ scope.Registers store id
  complete : ∀ name id, (store.frame scope).classes.get? name = some id →
    (id,store.classOf id) ∈ enrolled
  unique : (enrolled.map (·.2.qualifiedName)).Nodup

theorem lists_nil (present : scope.index < store.frames.size)
    (empty : (store.frame scope).classes = .empty) : scope.Lists store [] where
  present := present
  indexes := .of_empty empty
  distinct := by simp [empty,Table.names,Table.empty]
  bound := nofun
  complete name id found := by
    rw [empty] at found
    contradiction
  unique := .nil

variable {enrolled : List (ClassId × Class β)} {c : Class β}

theorem Lists.adopt (lists : scope.Lists store enrolled)
    (free : scope.classConflict? store c = none) :
    scope.Lists (scope.adopt store c) (enrolled ++ [((store.addClass c).1,c)]) := by
  have table := get?_adopt lists.present c
  have unbound : ∀ name, name = c.name ∨ name = c.qualifiedName →
      (store.frame scope).classes.get? name = none :=
    fun _ own => Scope.unbound lists.indexes.qualified free own
  have kept : ∀ name id, (store.frame scope).classes.get? name = some id →
      ((scope.adopt store c).frame scope).classes.get? name = some id ∧
        (scope.adopt store c).classOf id = store.classOf id :=
    fun _ _ found => lists.indexes.kept lists.present free found
  refine ⟨?_,lists.indexes.adopt lists.present free,?_,?_,?_,?_⟩
  · rw [frames_adopt]
    exact lists.present
  · rw [Scope.adopt,Store.frame_modifyFrame_self (by exact lists.present)]
    exact Table.nodup_names_insert (Table.nodup_names_insert lists.distinct _ _) _ _
  · intro id d member
    rcases List.mem_append.mp member with old | new
    · obtain ⟨rfl,registered⟩ := lists.bound id d old
      obtain ⟨found,body⟩ := kept _ id registered
      exact ⟨body,by rwa [Registers,body]⟩
    · obtain ⟨rfl,rfl⟩ := Prod.mk.inj (List.mem_singleton.mp new)
      rw [Registers,classOf_adopt_self,table,if_pos (.inr rfl)]
      exact ⟨rfl,rfl⟩
  · intro name id found
    rw [table] at found
    split at found
    · obtain rfl := Option.some.inj found
      rw [classOf_adopt_self]
      simp
    · rw [(kept name id found).2]
      exact List.mem_append_left _ (lists.complete name id found)
  · rw [List.map_append,List.nodup_append]
    refine ⟨lists.unique,by simp,fun name old other new same => ?_⟩
    obtain ⟨⟨id,d⟩,member,rfl⟩ := List.mem_map.mp old
    obtain ⟨rfl,registered⟩ := lists.bound id d member
    have taken : (store.classOf id).qualifiedName = c.qualifiedName := by simpa [same] using new
    rw [Registers,taken,unbound _ (.inr rfl)] at registered
    contradiction

theorem Lists.enroll (lists : scope.Lists store enrolled) (classes : List (Class β)) :
    scope.Lists (scope.enroll store classes).2
      (enrolled ++ (scope.enroll store classes).1) := by
  induction classes generalizing store enrolled with
  | nil => simpa [Scope.enroll] using lists
  | cons c rest ih =>
    simp only [Scope.enroll,run_defineClass]
    cases free : scope.classConflict? store c with
    | some e => exact ih lists
    | none =>
      have further := ih (lists.adopt free)
      simpa using further

theorem Lists.classNames (lists : scope.Lists store enrolled) :
    (scope.classNames store).Perm (enrolled.map (·.2.qualifiedName)) := by
  have ascending : (scope.classNames store).Pairwise (· < ·) := ascending_sortNames _
  refine (List.perm_ext_iff_of_nodup (ascending.imp ne_of_lt) lists.unique).mpr fun name => ?_
  simp only [Scope.classNames,mem_sortNames,List.mem_map,Table.mem_values_iff lists.distinct]
  constructor
  · rintro ⟨id,⟨key,found⟩,rfl⟩
    exact ⟨_,lists.complete key id found,rfl⟩
  · rintro ⟨⟨id,c⟩,member,rfl⟩
    obtain ⟨rfl,registered⟩ := lists.bound id c member
    exact ⟨id,⟨_,registered⟩,rfl⟩

end Scope

/-- The class table after any series of definitions in a scope that began without classes. Every
name in it is the simple or the qualified name of the class that it leads to, which is one that was
accepted; both names of each class that was accepted lead to it; one more definition, accepted or
not, leaves every name and its class as they are; and the listing is strictly ascending and has just
the qualified names of the classes that were accepted. -/
theorem class_table_exact {store : Store β} {scope : Scope}
    (present : scope.index < store.frames.size)
    (empty : (store.frame scope).classes = .empty) (classes : List (Class β)) :
    let (enrolled,last) := scope.enroll store classes
    (∀ name id, (last.frame scope).classes.get? name = some id →
      (id,last.classOf id) ∈ enrolled ∧
        (name = (last.classOf id).name ∨ name = (last.classOf id).qualifiedName)) ∧
    (∀ id c, (id,c) ∈ enrolled → last.classOf id = c ∧
      (last.frame scope).classes.get? c.name = some id ∧
      (last.frame scope).classes.get? c.qualifiedName = some id) ∧
    (∀ name id, (last.frame scope).classes.get? name = some id →
      ∀ c : Class β, let later := ((scope.defineClass c).run last).2
        (later.frame scope).classes.get? name = some id ∧
          later.classOf id = last.classOf id) ∧
    (scope.classNames last).Pairwise (· < ·) ∧
    (scope.classNames last).Perm (enrolled.map (·.2.qualifiedName)) := by
  have lists := (Scope.lists_nil present empty).enroll classes
  rw [List.nil_append] at lists
  refine ⟨fun name id found => ?_,fun id c member => ?_,fun name id found c => ?_,
    ascending_sortNames _,lists.classNames⟩
  · exact ⟨lists.complete name id found,lists.indexes.named name id found⟩
  · obtain ⟨rfl,registered⟩ := lists.bound id c member
    exact ⟨rfl,lists.indexes.simple _ id registered,registered⟩
  · rw [Scope.run_defineClass]
    cases free : scope.classConflict? _ c with
    | some e => exact ⟨found,rfl⟩
    | none => exact lists.indexes.kept lists.present free found

/-! Definitions whose names run into each other: a class in no module, one of the same simple name
in a module, refused, and one whose simple name spells the qualified name of that. -/
namespace Muddle

def rival : Class Unit := { name := "A", modulePath := "m" }

def classes : List (Class Unit) :=
  [{ name := "A" },rival,{ name := "m.A" },rival,{ name := "C", modulePath := "m.A" },
    { name := "" }]

def enrolled : List (ClassId × Class Unit) :=
  (Runtime.first.global.enroll World.first.store classes).1

def last : Store Unit := (Runtime.first.global.enroll World.first.store classes).2

end Muddle

/-- The name that two classes claim leads to the first of them, also when the other is tried once
more. -/
theorem class_table_exact_muddle :
    (Muddle.last.frame Runtime.first.global).classes.get? "m.A" = some ⟨1⟩ ∧
    (((Runtime.first.global.defineClass Muddle.rival).run Muddle.last).2.frame
      Runtime.first.global).classes.get? "m.A" = some ⟨1⟩ ∧
    (Runtime.first.global.classNames Muddle.last).Pairwise (· < ·) ∧
    (Runtime.first.global.classNames Muddle.last).Perm ["A","m.A","m.A.C",""] := by
  obtain ⟨_,bound,kept,ascending,listed⟩ :=
    @class_table_exact Unit World.first.store Runtime.first.global (by decide) rfl Muddle.classes
  have member : (⟨1⟩,{ name := "m.A" }) ∈ Muddle.enrolled := .tail _ (.head _)
  obtain ⟨_,simple,_⟩ := bound ⟨1⟩ { name := "m.A" } member
  exact ⟨simple,(kept "m.A" ⟨1⟩ simple Muddle.rival).1,ascending,listed⟩

end ObjectModel
