import ObjectModel.Proofs.Membership

/-! Casts of objects to classes. An object passes for a class under a name if the name is in its
hierarchy, or if a name there ends in a dot and the given one. The latter is meant for simple names,
but it is tried for every name, and so the qualified name of a class may be the end of that of
another one, to which it has no relation. Casts to a qualified name go by the hierarchy exactly where
no name there goes on in front of it, as when none has more dots. -/
namespace ObjectModel

variable {β : Type}

theorem endsInName_iff {entry name : String} :
    Object.endsInName entry name = true ↔ ∃ front, entry = front ++ "." ++ name := by
  rw [Object.endsInName,List.isSuffixOf_iff_suffix]
  constructor
  · rintro ⟨front,same⟩
    refine ⟨String.ofList front,String.toList_injective ?_⟩
    simp [← same]
  · rintro ⟨front,rfl⟩
    exact ⟨front.toList,by simp⟩

theorem count_dot_lt (front name : String) :
    name.toList.count '.' < (front ++ "." ++ name).toList.count '.' := by
  simp only [String.toList_append,List.count_append]
  have dot : (".".toList).count '.' = 1 := by decide
  omega

theorem Instance.descends_iff {it : Instance} {name : String} :
    it.Descends name ↔ name ∈ it.hierarchy ∨ ∃ front, front ++ "." ++ name ∈ it.hierarchy := by
  simp only [Descends,endsInName_iff]
  constructor
  · rintro (member | ⟨entry,member,front,rfl⟩)
    · exact .inl member
    · exact .inr ⟨front,member⟩
  · rintro (member | ⟨front,member⟩)
    · exact .inl member
    · exact .inr ⟨_,member,front,rfl⟩

theorem Value.cast_named_iff {store : Store β} {o : Object} {name : String} :
    (∃ w, (Value.object o).cast store (.named name) = .ok w) ↔ o.isInstanceOf store name = true := by
  simp only [cast,castObject]
  split <;> simp_all

/-- What a qualified name means to the object itself is in its hierarchy under that very name. -/
theorem Object.isInstanceOf_qualified_iff {store : Store β} {o : Object} {scope : Scope}
    {d : ClassId} (made : (store.object o).scope = some scope)
    (found : scope.lookupClass store (store.classOf d).qualifiedName = .ok d) :
    o.isInstanceOf store (store.classOf d).qualifiedName = true ↔
      (store.object o).Descends (store.classOf d).qualifiedName := by
  refine ⟨fun member => ?_,isInstanceOf_of_descends⟩
  simp only [isInstanceOf,made,found,Bool.or_eq_true,List.contains_iff_mem,
    List.any_eq_true] at member
  rcases member with named | meant
  · exact named
  · exact .inl meant

/-- Casts to the qualified name of a class, where the scope of the object knows the class under it.
The cast succeeds exactly if the name is in the hierarchy of the object, or goes on there in front.
So success means that the class is in the hierarchy exactly if the name goes on in front of it in no
other name there, or is itself there; and always if no name there has more dots. -/
theorem qualified_cast_iff {store : Store β} {o : Object} {scope : Scope} {d : ClassId}
    (made : (store.object o).scope = some scope)
    (found : scope.lookupClass store (store.classOf d).qualifiedName = .ok d) :
    let name := (store.classOf d).qualifiedName
    let hierarchy := (store.object o).hierarchy
    let succeeds := ∃ w, (Value.object o).cast store (.named name) = .ok w
    (succeeds ↔ name ∈ hierarchy ∨ ∃ front, front ++ "." ++ name ∈ hierarchy) ∧
    ((succeeds ↔ name ∈ hierarchy) ↔
      ((∃ front, front ++ "." ++ name ∈ hierarchy) → name ∈ hierarchy)) ∧
    ((∀ entry ∈ hierarchy, entry.toList.count '.' ≤ name.toList.count '.') →
      (succeeds ↔ name ∈ hierarchy)) := by
  intro name hierarchy succeeds
  have decided : succeeds ↔ name ∈ hierarchy ∨ ∃ front, front ++ "." ++ name ∈ hierarchy :=
    calc
      succeeds ↔ o.isInstanceOf store name = true := Value.cast_named_iff
      _ ↔ (store.object o).Descends name := Object.isInstanceOf_qualified_iff made found
      _ ↔ _ := Instance.descends_iff
  rw [decided]
  refine ⟨Iff.rfl,or_iff_left_iff_imp,fun dots => or_iff_left ?_⟩
  rintro ⟨front,member⟩
  have more := count_dot_lt front name
  have bound := dots _ member
  omega

/-! A class in a module of a module, and in a scope inside a class of the same name whose module is
named like the inner one. An object of the former is made where both are known. -/
namespace Homonym

def inner : Scope := ⟨1⟩

def innerContext : Context := { runtime := .first, scope := inner }

def moves : List (Move Unit) :=
  [.ask Runtime.first.globalContext (.defineClass { name := "A", modulePath := "x.m" }),
    .enter Runtime.first.global,
    .ask innerContext (.defineClass { name := "A", modulePath := "m" }),
    .ask innerContext (.newObject "x.m.A")]

def world : World Unit Unit := World.first.play .idle moves

theorem reached : World.Reaches .idle (fun _ _ => True) .first world :=
  World.Reaches.start.play ⟨trivial,trivial,trivial,trivial,trivial⟩

end Homonym

/-- The cast to the class of the object is exact, and the cast to the other one is not. -/
theorem qualified_cast_iff_homonym :
    (∃ w, (Value.object ⟨0⟩).cast Homonym.world.store (.named "x.m.A") = .ok w) ∧
    ¬((∃ w, (Value.object ⟨0⟩).cast Homonym.world.store (.named "m.A") = .ok w) ↔
      "m.A" ∈ (Homonym.world.store.object ⟨0⟩).hierarchy) := by
  have own := @qualified_cast_iff Unit Homonym.world.store ⟨0⟩ Homonym.inner ⟨0⟩ rfl rfl
  have other := @qualified_cast_iff Unit Homonym.world.store ⟨0⟩ Homonym.inner ⟨1⟩ rfl rfl
  refine ⟨(own.2.2 (by decide)).mpr (by decide),fun exactly => ?_⟩
  exact absurd (other.2.1.mp exactly ⟨"x",by decide⟩) (by decide)

theorem unrelated_class_accepted :
    World.Reaches .idle (fun _ _ => True) .first Homonym.world ∧
    (Homonym.world.store.object ⟨0⟩).scope = some Homonym.inner ∧
    Homonym.inner.lookupClass Homonym.world.store
      (Homonym.world.store.classOf ⟨1⟩).qualifiedName = .ok ⟨1⟩ ∧
    (Homonym.world.store.classOf ⟨1⟩).qualifiedName ∉
      (Homonym.world.store.object ⟨0⟩).hierarchy ∧
    (Value.object ⟨0⟩).cast Homonym.world.store
      (.named (Homonym.world.store.classOf ⟨1⟩).qualifiedName) = .ok (.object ⟨0⟩) :=
  ⟨Homonym.reached,rfl,rfl,by decide,rfl⟩

end ObjectModel
