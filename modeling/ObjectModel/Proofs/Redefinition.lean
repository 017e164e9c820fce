import ObjectModel.Proofs.ClassIndex

/-! What becomes of a class that is defined beside others. It exists already if a class of its
qualified name is there, it redeclares a class if its simple name stands for one of another
qualified name, and otherwise it is accepted. This is how refusals are meant to be told apart; but
simple names stand in the table too, and a qualified name that is the simple name of another class
counts as one that exists. Definitions are told apart as they are meant to be exactly where this
does not happen, and so always for a class of a module if the simple names have no dots. -/
namespace ObjectModel

variable {β σ : Type} {scope : Scope} {store : Store β} {c : Class β} {d : ClassId}

namespace Scope

def HasQualified (scope : Scope) (store : Store β) (name : String) : Prop :=
  ∃ d, scope.Registers store d ∧ (store.classOf d).qualifiedName = name

def HasSimple (scope : Scope) (store : Store β) (name : String) : Prop :=
  ∃ d, scope.Registers store d ∧ (store.classOf d).name = name

/-- The outcome of a definition tells a class that is there already, a simple name that stands for
another class, and a class that can be accepted apart. -/
structure Classifies (scope : Scope) (store : Store β) (c : Class β)
    (outcome : Except Error ClassId) : Prop where
  taken : outcome = .error (.alreadyExists .classDefinition c.qualifiedName) ↔
    scope.HasQualified store c.qualifiedName
  redeclared : ∀ existing, outcome = .error (.redeclared c.name existing c.qualifiedName) ↔
    ¬scope.HasQualified store c.qualifiedName ∧ existing ≠ c.qualifiedName ∧
      ∃ d, (store.frame scope).classes.get? c.name = some d ∧
        (store.classOf d).qualifiedName = existing
  accepted : (∃ id, outcome = .ok id) ↔
    ¬scope.HasQualified store c.qualifiedName ∧
      ∀ d, (store.frame scope).classes.get? c.name = some d →
        (store.classOf d).qualifiedName = c.qualifiedName

theorem Indexes.get?_eq_some_iff (indexes : scope.Indexes store) {name : String} :
    (store.frame scope).classes.get? name = some d ↔
      scope.Registers store d ∧
        ((store.classOf d).qualifiedName = name ∨ (store.classOf d).name = name) := by
  constructor
  · intro bound
    refine ⟨indexes.qualified name d bound,?_⟩
    rcases indexes.named name d bound with simple | qualified
    · exact .inr simple.symm
    · exact .inl qualified.symm
  · rintro ⟨registered,rfl | rfl⟩
    · exact registered
    · exact indexes.simple _ d registered

theorem Indexes.exists_get?_iff (indexes : scope.Indexes store) {name : String} :
    (∃ d, (store.frame scope).classes.get? name = some d) ↔
      scope.HasQualified store name ∨ scope.HasSimple store name := by
  simp only [indexes.get?_eq_some_iff,and_or_left,exists_or]
  exact Iff.rfl

/-- The three ways that a definition can go, by what the two names of the class stand for. -/
theorem Indexes.outcome (indexes : scope.Indexes store) (c : Class β) :
    (∃ d, (store.frame scope).classes.get? c.qualifiedName = some d) ∧
      ((scope.defineClass c).run store).1 =
        .error (.alreadyExists .classDefinition c.qualifiedName) ∨
    (store.frame scope).classes.get? c.qualifiedName = none ∧
      (∃ d, (store.frame scope).classes.get? c.name = some d ∧
        (store.classOf d).qualifiedName ≠ c.qualifiedName ∧
        ((scope.defineClass c).run store).1 =
          .error (.redeclared c.name (store.classOf d).qualifiedName c.qualifiedName)) ∨
    (store.frame scope).classes.get? c.qualifiedName = none ∧
      (store.frame scope).classes.get? c.name = none ∧
      ((scope.defineClass c).run store).1 = .ok (store.addClass c).1 := by
  rw [run_defineClass]
  cases qualified : (store.frame scope).classes.get? c.qualifiedName with
  | some d => exact .inl ⟨⟨d,rfl⟩,by simp [classConflict?,Table.contains,qualified]⟩
  | none =>
    right
    cases simple : (store.frame scope).classes.get? c.name with
    | none => exact .inr ⟨rfl,rfl,by simp [classConflict?,Table.contains,qualified,simple]⟩
    | some d =>
      -- The class is there under its own qualified name, which the other one is not.
      have apart : (store.classOf d).qualifiedName ≠ c.qualifiedName := by
        intro same
        have registered := indexes.qualified c.name d simple
        rw [Registers,same,qualified] at registered
        contradiction
      exact .inl ⟨rfl,d,rfl,apart,by
        simp [classConflict?,Table.contains,qualified,simple,apart]⟩

theorem Indexes.taken_iff (indexes : scope.Indexes store) :
    ((scope.defineClass c).run store).1 =
        .error (.alreadyExists .classDefinition c.qualifiedName) ↔
      scope.HasQualified store c.qualifiedName ∨ scope.HasSimple store c.qualifiedName := by
  rw [← indexes.exists_get?_iff]
  rcases indexes.outcome c with ⟨bound,came⟩ | ⟨free,d,_,_,came⟩ | ⟨free,_,came⟩
  · simp [came,bound]
  · simp [came,free]
  · simp [came,free]

theorem Indexes.redeclared_iff (indexes : scope.Indexes store) (existing : String) :
    ((scope.defineClass c).run store).1 =
        .error (.redeclared c.name existing c.qualifiedName) ↔
      ¬(scope.HasQualified store c.qualifiedName ∨ scope.HasSimple store c.qualifiedName) ∧
        ∃ d, (store.frame scope).classes.get? c.name = some d ∧
          (store.classOf d).qualifiedName = existing := by
  rw [← indexes.exists_get?_iff]
  rcases indexes.outcome c with ⟨bound,came⟩ | ⟨free,d,simple,_,came⟩ | ⟨free,simple,came⟩
  · simp [came,bound]
  · simp [came,free,simple]
  · simp [came,simple]

theorem Indexes.accepted_iff (indexes : scope.Indexes store) :
    (∃ id, ((scope.defineClass c).run store).1 = .ok id) ↔
      ¬(scope.HasQualified store c.qualifiedName ∨ scope.HasSimple store c.qualifiedName) ∧
        ¬(scope.HasQualified store c.name ∨ scope.HasSimple store c.name) := by
  simp only [← indexes.exists_get?_iff]
  rcases indexes.outcome c with ⟨bound,came⟩ | ⟨free,d,simple,_,came⟩ | ⟨free,simple,came⟩
  · simp [came,bound]
  · simp [came,simple]
  · simp [came,free,simple]

theorem Indexes.ne_of_unqualified (indexes : scope.Indexes store) {name other : String}
    (unqualified : ¬scope.HasQualified store name)
    (bound : (store.frame scope).classes.get? other = some d) :
    (store.classOf d).qualifiedName ≠ name :=
  fun same => unqualified ⟨d,indexes.qualified other d bound,same⟩

/-- Outcomes are told apart as meant exactly if the qualified name is a simple name in the scope
only where it is a qualified one too. -/
theorem Indexes.classifies_iff (indexes : scope.Indexes store) :
    scope.Classifies store c ((scope.defineClass c).run store).1 ↔
      (scope.HasSimple store c.qualifiedName → scope.HasQualified store c.qualifiedName) := by
  constructor
  · intro classifies simple
    exact classifies.taken.mp (indexes.taken_iff.mpr (.inr simple))
  · intro qualifies
    have known : scope.HasQualified store c.qualifiedName ∨
        scope.HasSimple store c.qualifiedName ↔ scope.HasQualified store c.qualifiedName :=
      or_iff_left_of_imp qualifies
    refine ⟨?_,fun existing => ?_,?_⟩
    · rw [indexes.taken_iff,known]
    · rw [indexes.redeclared_iff,known]
      refine and_congr_right fun unqualified => (and_iff_right_of_imp ?_).symm
      rintro ⟨d,bound,rfl⟩
      exact indexes.ne_of_unqualified unqualified bound
    · rw [indexes.accepted_iff,known,← indexes.exists_get?_iff]
      refine and_congr_right fun unqualified => ⟨fun free d bound => ?_,?_⟩
      · exact absurd ⟨d,bound⟩ free
      · rintro same ⟨d,bound⟩
        exact indexes.ne_of_unqualified unqualified bound (same d bound)

end Scope

/-- Definitions in a tree of scopes that only class definitions have filled. A class is refused as
existing exactly if its qualified name is the qualified or the simple name of a class in the scope;
it is refused as redeclaring another, which is named, exactly if not and its simple name stands for
that class; and it is accepted exactly if neither of its names is one of a class in the scope. So
outcomes are told apart as they are meant to be exactly if no class has as its simple name the
qualified name of the new one, or one has it as its qualified name too; and always if the new one
has a module and the simple names in the scope have no dots. -/
theorem redefinition_classified_iff {host : Host β σ} {start w : World β σ}
    (blank : start.store.Blank) (reached : World.Reaches host (fun _ => Move.Builds) start w)
    (scope : Scope) (c : Class β) :
    let outcome := ((scope.defineClass c).run w.store).1
    (outcome = .error (.alreadyExists .classDefinition c.qualifiedName) ↔
      scope.HasQualified w.store c.qualifiedName ∨ scope.HasSimple w.store c.qualifiedName) ∧
    (∀ existing, outcome = .error (.redeclared c.name existing c.qualifiedName) ↔
      ¬(scope.HasQualified w.store c.qualifiedName ∨ scope.HasSimple w.store c.qualifiedName) ∧
        ∃ d, (w.store.frame scope).classes.get? c.name = some d ∧
          (w.store.classOf d).qualifiedName = existing) ∧
    ((∃ id, outcome = .ok id) ↔
      ¬(scope.HasQualified w.store c.qualifiedName ∨ scope.HasSimple w.store c.qualifiedName) ∧
        ¬(scope.HasQualified w.store c.name ∨ scope.HasSimple w.store c.name)) ∧
    (scope.Classifies w.store c outcome ↔
      (scope.HasSimple w.store c.qualifiedName → scope.HasQualified w.store c.qualifiedName)) ∧
    (c.modulePath ≠ "" →
      (∀ d, scope.Registers w.store d → '.' ∉ (w.store.classOf d).name.toList) →
      scope.Classifies w.store c outcome) := by
  have indexes := Scope.indexes_reaches blank reached scope
  refine ⟨indexes.taken_iff,indexes.redeclared_iff,indexes.accepted_iff,indexes.classifies_iff,
    fun modular undotted => indexes.classifies_iff.mpr ?_⟩
  rintro ⟨d,registered,same⟩
  exact absurd (same ▸ Class.dot_mem_qualifiedName modular) (undotted d registered)

/-! A class of a module, with which a class of another module and a class of no module collide. -/
namespace Collision

def world : World Unit Unit :=
  World.first.play .idle
    [.ask Runtime.first.globalContext (.defineClass { name := "A", modulePath := "m" })]

theorem reached : World.Reaches .idle (fun _ => Move.Builds) .first world :=
  World.Reaches.start.play ⟨trivial,trivial⟩

theorem eq_of_registers {d : ClassId} (registered : Runtime.first.global.Registers world.store d) :
    d = ⟨0⟩ := by
  have entries : (world.store.frame Runtime.first.global).classes.entries =
      [("m.A",⟨0⟩),("A",⟨0⟩)] := rfl
  simp only [Scope.Registers,Table.get?,entries,Table.lookup] at registered
  split at registered
  · exact (Option.some.inj registered).symm
  · split at registered
    · exact (Option.some.inj registered).symm
    · contradiction

theorem unqualified : ¬Runtime.first.global.HasQualified world.store "A" := by
  rintro ⟨d,registered,same⟩
  obtain rfl := eq_of_registers registered
  exact absurd same (by decide)

end Collision

theorem redefinition_classified_iff_collision :
    ((Runtime.first.global.defineClass { name := "A", modulePath := "k" }).run
      Collision.world.store).1 = .error (.redeclared "A" "m.A" "k.A") ∧
    ¬Runtime.first.global.Classifies Collision.world.store { name := "A" }
      ((Runtime.first.global.defineClass { name := "A" }).run Collision.world.store).1 := by
  obtain ⟨_,_,_,_,modular⟩ := redefinition_classified_iff (.create defaultCallDepth false)
    Collision.reached Runtime.first.global { name := "A", modulePath := "k" }
  obtain ⟨_,_,_,bare,_⟩ := redefinition_classified_iff (.create defaultCallDepth false)
    Collision.reached Runtime.first.global { name := "A" }
  refine ⟨?_,fun classifies => ?_⟩
  · have classifies := modular (by decide) fun d registered => by
      obtain rfl := Collision.eq_of_registers registered
      decide
    refine (classifies.redeclared "m.A").mpr ⟨?_,by decide,⟨0⟩,rfl,rfl⟩
    rintro ⟨d,registered,same⟩
    obtain rfl := Collision.eq_of_registers registered
    exact absurd same (by decide)
  · exact Collision.unqualified (bare.mp classifies ⟨⟨0⟩,rfl,rfl⟩)

/-- No class of the qualified name is there, and its simple name stands for a class of another one;
but the class is refused as existing and not as redeclaring that one. -/
theorem redeclared_class_reported_existing :
    World.Reaches .idle (fun _ => Move.Builds) .first Collision.world ∧
    ¬Runtime.first.global.HasQualified Collision.world.store
      ({ name := "A" } : Class Unit).qualifiedName ∧
    (Collision.world.store.frame Runtime.first.global).classes.get? "A" = some ⟨0⟩ ∧
    (Collision.world.store.classOf ⟨0⟩).qualifiedName = "m.A" ∧
    ((Runtime.first.global.defineClass { name := "A" }).run Collision.world.store).1 =
      .error (.alreadyExists .classDefinition "A") :=
  ⟨Collision.reached,Collision.unqualified,rfl,rfl,rfl⟩

end ObjectModel
