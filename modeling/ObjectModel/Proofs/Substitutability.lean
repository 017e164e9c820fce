import ObjectModel.Cast
import ObjectModel.Proofs.Coherence
import ObjectModel.Proofs.Declaration
import ObjectModel.Proofs.Layout
import ObjectModel.Proofs.MethodSearch

/-! Instances stand in for those of the ancestors of their class. Along every history at home an
instance keeps the hierarchy recorded for its class, and its members are the declarations met first
in it; the orders of its ancestors lie within its own. So it casts to whatever they cast to, shows
what they show, and its class finds the methods that they find, up to what the class itself makes
private. A private declaration further up takes nothing away. -/
namespace ObjectModel

variable {β σ : Type} {home scope : Scope} {store later : Store β} {a c d : ClassId}
  {order : List String} {name : String} {caller : Caller}

theorem Coherent.within {memo : Memo} (coherent : Coherent home store memo)
    (registered : home.Registers store d) (known : memo.get? c = some order)
    (named : (store.classOf d).qualifiedName ∈ order) :
    ∃ inner, memo.get? d = some inner ∧ inner.Sublist order := by
  obtain ⟨e,inner,other,same,recorded,within⟩ := coherent.entries c order known _ named
  obtain rfl := other.unique registered same
  exact ⟨inner,recorded,within⟩

namespace Scope

theorem Houses.ancestor (houses : home.Houses store) (inside : home ∈ store.chain scope)
    (registered : home.Registers store c) (other : home.Registers store d) :
    ClassId.ancestor store scope c (store.classOf d).qualifiedName = .ok d := by
  unfold ClassId.ancestor
  split
  next same => rw [other.unique registered same]
  next => exact houses.lookup_of_registers inside other

theorem Houses.inherited (houses : home.Houses store) (inside : home ∈ store.chain scope)
    (registered : home.Registers store c) (other : home.Registers store d) (name : String) :
    ClassId.inherited store scope c name (store.classOf d).qualifiedName =
      ClassId.declaration store c d name := by
  rw [ClassId.inherited,houses.ancestor inside registered other]

end Scope

theorem Evolves.declaration (evolves : Evolves home store later)
    (first : c.index < store.classes.size) (second : d.index < store.classes.size)
    (name : String) :
    ClassId.declaration later c d name = ClassId.declaration store c d name := by
  obtain ⟨_,_,body⟩ := evolves.body c first
  obtain ⟨_,_,other⟩ := evolves.body d second
  unfold ClassId.declaration
  rw [body,other]

/-- An instance as it is made at home: its hierarchy is what is recorded for its class, and each
member is what the first class of the hierarchy to declare one declares. -/
structure Furnished (home : Scope) (store : Store β) (it : Instance) : Prop where
  registered : home.Registers store it.definition
  recorded : store.memo.get? it.definition = some it.hierarchy
  members : ∀ name, it.members.get? name =
    it.hierarchy.findSome? (ClassId.inherited store home it.definition name)

theorem findSome?_congr {α γ : Type} {f g : α → Option γ} {l : List α}
    (same : ∀ x ∈ l, f x = g x) : l.findSome? f = l.findSome? g := by
  induction l with
  | nil => rfl
  | cons x rest ih =>
    rw [List.findSome?_cons,List.findSome?_cons,same x List.mem_cons_self,
      ih fun y member => same y (List.mem_cons_of_mem x member)]

theorem Furnished.evolves {it : Instance} (furnished : Furnished home store it)
    (houses : home.Houses store) (coherent : Coherent home store store.memo)
    (houses' : home.Houses later) (evolves : Evolves home store later) :
    Furnished home later it := by
  have registered := evolves.registers houses furnished.registered
  refine ⟨registered,evolves.memo _ _ furnished.recorded,fun name => ?_⟩
  rw [furnished.members name]
  refine findSome?_congr fun entry member => ?_
  obtain ⟨d,_,other,rfl,_,_⟩ := coherent.entries _ _ furnished.recorded entry member
  have present := houses.lt_size other
  rw [houses.inherited (Scope.self_mem_chain home store) furnished.registered other,
    ← evolves.declaration (houses.lt_size furnished.registered) present,
    ← evolves.qualifiedName present]
  exact (houses'.inherited (Scope.self_mem_chain home later) registered
    (evolves.registers houses other) name).symm

structure Populated (home : Scope) (store : Store β) : Prop where
  coherent : Coherent home store store.memo
  orderly : ∀ name c, (store.frame home).classes.get? name = some c → (store.classOf c).Orderly
  furnished : ∀ o, o.index < store.instances.size → Furnished home store (store.object o)

namespace Populated

theorem of_blank (blank : store.Blank) : Populated home store where
  coherent := .of_empty blank.unrecorded
  orderly name c bound := by
    rw [blank.classless] at bound
    contradiction
  furnished o present := by
    rw [blank.uninhabited] at present
    exact absurd present (Nat.not_lt_zero _)

theorem orderly_change {reparenting : Prop} (populated : Populated home store)
    (houses : home.Houses store) (change : Change home Class.Declared reparenting store later)
    (name : String) (c : ClassId) (bound : (later.frame home).classes.get? name = some c) :
    (later.classOf c).Orderly := by
  cases change with
  | enter outer =>
    rw [houses.frame_child] at bound
    exact populated.orderly name c bound
  | define added sound free =>
    rw [Scope.get?_adopt houses.present] at bound
    split at bound
    · obtain rfl := Option.some.inj bound
      rw [Scope.classOf_adopt_self]
      exact sound.orderly
    · rw [Scope.classOf_adopt_of_lt (houses.allotted name c bound)]
      exact populated.orderly name c bound
  | reparent reparented parents =>
    obtain ⟨declared,body⟩ := Scope.classOf_reparent reparented parents
      (houses.allotted name c bound)
    rw [body]
    exact (populated.orderly name c bound).withParents declared
  | record | create => exact populated.orderly name c bound

theorem orderly_of_registers (populated : Populated home store)
    (registered : home.Registers store c) : (store.classOf c).Orderly :=
  populated.orderly _ c registered

theorem furnished_new {hierarchy : List String} {members : Table Variable}
    (populated : Populated home store) (houses : home.Houses store)
    (inside : home ∈ store.chain scope) (registered : home.Registers store c)
    (recorded : store.memo.get? c = some hierarchy)
    (laid : ClassId.layout store scope c hierarchy.reverse .empty = .ok members) :
    Furnished home store { definition := c, scope := some scope, hierarchy, members } := by
  have found : ∀ entry ∈ hierarchy, ∃ d, home.Registers store d ∧
      (store.classOf d).qualifiedName = entry := by
    intro entry member
    obtain ⟨d,_,other,named,_,_⟩ := populated.coherent.entries c hierarchy recorded entry member
    exact ⟨d,other,named⟩
  have distinct : ClassId.Distinct store scope c hierarchy := by
    refine ⟨(populated.orderly_of_registers registered).privateVariables.distinct,?_⟩
    intro entry member d met
    obtain ⟨e,other,rfl⟩ := found entry member
    rw [houses.ancestor inside registered other] at met
    obtain rfl := Except.ok.inj met
    exact (populated.orderly_of_registers other).publicVariables.distinct
  refine ⟨registered,recorded,fun name => ?_⟩
  rw [ClassId.get?_layout_reverse distinct laid name]
  refine findSome?_congr fun entry member => ?_
  obtain ⟨d,other,rfl⟩ := found entry member
  rw [houses.inherited inside registered other,
    houses.inherited (Scope.self_mem_chain home store) registered other]

theorem change {reparenting : Prop} (houses : home.Houses store)
    (change : Change home Class.Declared reparenting store later)
    (populated : Populated home store) : Populated home later := by
  have evolves := change.evolves houses
  have houses' := houses.change change
  have kept : ∀ o, o.index < store.instances.size → Furnished home later (later.object o) := by
    intro o present
    rw [(evolves.objects o present).2]
    exact (populated.furnished o present).evolves houses populated.coherent houses' evolves
  refine ⟨populated.coherent.change houses change,populated.orderly_change houses change,?_⟩
  cases change with
  | enter | define | reparent | record => exact kept
  | @create scope c hierarchy members inside registered recorded laid =>
    intro o present
    rcases Nat.lt_succ_iff_lt_or_eq.mp (Nat.lt_of_lt_of_eq present (Arena.size_push ..)) with
      old | new
    · exact kept o old
    · -- It is furnished in the store before, which has its class and the recorded order already.
      have made := populated.furnished_new houses inside registered recorded laid
      have itself : o = ⟨store.instances.size⟩ := congrArg Object.mk new
      rw [itself]
      have placed := Store.object_addObject_self store
        { definition := c, scope := some scope, hierarchy, members }
      rw [← placed] at made
      exact made.evolves houses populated.coherent houses' evolves

theorem reaches {reparenting : Prop} {host : Host β σ} {start w : World β σ}
    (blank : start.store.Blank) (present : home.index < start.store.frames.size)
    (reached : World.Reaches host (home.Admits Class.Declared reparenting) start w) :
    home.Houses w.store ∧ Populated home w.store := by
  have kept : ∀ store later : Store β, home.Houses store →
      Change home Class.Declared reparenting store later → Populated home store →
      Populated home later := fun _ _ => change
  exact (blank.houses present).reaches kept (.of_blank blank) reached

end Populated

theorem Object.member_eq_own_iff {o : Object} {v : Variable} :
    o.member store name caller = .ok (.own,v) ↔ (store.object o).members.get? name = some v ∧
      (v.visibility = .shown ∨ caller = (store.definitionOf o).identity) := by
  simp only [Object.member]
  cases (store.object o).members.get? name with
  | none => cases (store.definitionOf o).sharedVariables.get? name <;> simp
  | some found =>
    simp only [Variable.isShown,Caller.is,Class.identity,Bool.or_eq_true,beq_iff_eq]
    constructor
    · intro given
      split at given
      next allowed =>
        obtain rfl : found = v := by simpa using given
        exact ⟨rfl,allowed⟩
      next => contradiction
    · rintro ⟨same,allowed⟩
      obtain rfl := Option.some.inj same
      rw [if_pos allowed]

namespace Furnished

variable {it : Instance} {v : Variable}

theorem origin (furnished : Furnished home store it) (populated : Populated home store)
    (houses : home.Houses store) (found : it.members.get? name = some v) :
    (store.classOf it.definition).privateVariables.get? name = some v ∨
    ∃ d, home.Registers store d ∧ (store.classOf d).qualifiedName ∈ it.hierarchy ∧
      (store.classOf d).publicVariables.get? name = some v := by
  rw [furnished.members] at found
  obtain ⟨entry,member,added⟩ := List.exists_of_findSome?_eq_some found
  obtain ⟨d,_,registered,rfl,_,_⟩ :=
    populated.coherent.entries _ _ furnished.recorded entry member
  rw [houses.inherited (Scope.self_mem_chain home store) furnished.registered registered] at added
  rcases ClassId.declaration_cases added with own | shown
  · exact .inl own
  · exact .inr ⟨d,registered,member,shown⟩

/-- A public declaration in the hierarchy gives a member that every caller may use, unless the
class itself has a private one of that name. -/
theorem exists_shown (furnished : Furnished home store it) (populated : Populated home store)
    (houses : home.Houses store) (registered : home.Registers store d)
    (member : (store.classOf d).qualifiedName ∈ it.hierarchy)
    (declared : (store.classOf d).publicVariables.get? name = some v)
    (unhidden : (store.classOf it.definition).privateVariables.get? name = none) :
    ∃ shown, it.members.get? name = some shown ∧ shown.visibility = .shown := by
  have added : (ClassId.inherited store home it.definition name
      (store.classOf d).qualifiedName).isSome := by
    rw [houses.inherited (Scope.self_mem_chain home store) furnished.registered registered]
    simp [ClassId.declaration,declared]
  have present : (it.members.get? name).isSome := by
    rw [furnished.members,List.findSome?_isSome_iff]
    exact ⟨_,member,added⟩
  obtain ⟨shown,found⟩ := Option.isSome_iff_exists.mp present
  refine ⟨shown,found,?_⟩
  rcases furnished.origin populated houses found with own | ⟨e,other,_,public_⟩
  · rw [unhidden] at own
    contradiction
  · exact (populated.orderly_of_registers other).publicVariables.uniform name shown public_

theorem exists_shown_of_subset {other : Instance} (furnished : Furnished home store it)
    (ancestral : Furnished home store other) (populated : Populated home store)
    (houses : home.Houses store) (within : other.hierarchy ⊆ it.hierarchy)
    (found : other.members.get? name = some v) (shown : v.visibility = .shown)
    (unhidden : (store.classOf it.definition).privateVariables.get? name = none) :
    ∃ shown, it.members.get? name = some shown ∧ shown.visibility = .shown := by
  rcases ancestral.origin populated houses found with own | ⟨d,registered,member,declared⟩
  · have orderly := populated.orderly_of_registers ancestral.registered
    rw [orderly.privateVariables.uniform name v own] at shown
    contradiction
  · exact furnished.exists_shown populated houses registered (within member) declared unhidden

end Furnished

/-- The class and the ancestors that a scope inside home sees are those named in its order. -/
theorem Populated.mem_searched (populated : Populated home store) (houses : home.Houses store)
    (inside : home ∈ store.chain scope) (known : store.memo.get? c = some order) {k : Class β} :
    k ∈ store.classOf c :: Resolution.visibleAncestors store (some scope) order ↔
      ∃ d, home.Registers store d ∧ (store.classOf d).qualifiedName ∈ order ∧
        store.classOf d = k := by
  have registered := populated.coherent.registers c order known
  obtain ⟨rest,rfl⟩ := List.head?_eq_some_iff.mp (populated.coherent.head c order known)
  simp only [Resolution.visibleAncestors,List.tail_cons,List.mem_cons,List.mem_filterMap]
  constructor
  · rintro (rfl | ⟨entry,member,seen⟩)
    · exact ⟨c,registered,.inl rfl,rfl⟩
    · obtain ⟨d,_,other,rfl,_,_⟩ :=
        populated.coherent.entries c _ known entry (List.mem_cons_of_mem _ member)
      rw [houses.lookup_of_registers inside other] at seen
      exact ⟨d,other,.inr member,Option.some.inj seen⟩
  · rintro ⟨d,other,itself | member,rfl⟩
    · exact .inl (by rw [other.unique registered itself])
    · refine .inr ⟨_,member,?_⟩
      rw [houses.lookup_of_registers inside other]

/-- What one class finds, a class with a larger order finds too, unless it refuses. The method
may be another one, but it has the same name. -/
theorem Populated.exists_finds {w : World β σ} {inner : List String} {near far : Scope}
    {f : Function β} (populated : Populated home w.store) (houses : home.Houses w.store)
    (known : c.recorded? w.store = some order) (recorded : a.recorded? w.store = some inner)
    (within : inner ⊆ order) (inside : home ∈ w.store.chain near)
    (inside' : home ∈ w.store.chain far) (finds : a.Finds w near name caller f)
    (allowed : (w.store.classOf c).offer name caller ≠ .denied) :
    ∃ g, c.Finds w far name caller g ∧ g.name = name := by
  have searched := Resolution.search_eq_found_iff.mp ((ClassId.finds_iff recorded).mp finds)
  obtain ⟨k,member,offered⟩ := List.exists_of_findSome?_eq_some searched.2
  obtain ⟨d,registered,named,rfl⟩ := (populated.mem_searched houses inside recorded).mp member
  -- The class that offers it there is searched here too, though another may offer first.
  have present : w.store.classOf d ∈ w.store.classOf c ::
      Resolution.visibleAncestors w.store (some far) order :=
    (populated.mem_searched houses inside' known).mpr ⟨d,registered,within named,rfl⟩
  have answered : ((w.store.classOf c :: Resolution.visibleAncestors w.store (some far)
      order).findSome? (·.offered? name caller)).isSome := by
    rw [List.findSome?_isSome_iff]
    exact ⟨_,present,by rw [offered]; rfl⟩
  obtain ⟨g,first⟩ := Option.isSome_iff_exists.mp answered
  refine ⟨g,(ClassId.finds_iff known).mpr (Resolution.search_eq_found_iff.mpr ⟨allowed,first⟩),?_⟩
  obtain ⟨k,member,offered⟩ := List.exists_of_findSome?_eq_some first
  obtain ⟨e,other,_,rfl⟩ := (populated.mem_searched houses inside' known).mp member
  exact (populated.orderly_of_registers other).name_of_offered offered

/-- An instance of a class stands in for the instances of each class in its hierarchy. It casts to
whatever they cast to. It has the members that they show to others, unless its own class has a
private variable of that name. And its class has the methods that theirs has, unless it has the
method as a private one only and the caller is another. -/
theorem instance_substitutable {host : Host β σ} {start w : World β σ} {o : Object}
    (blank : start.store.Blank) (present : home.index < start.store.frames.size)
    (reached : World.Reaches host (home.Admits Class.Declared True) start w)
    (made : o.index < w.store.instances.size) (registered : home.Registers w.store a)
    (named : (w.store.classOf a).qualifiedName ∈ (w.store.object o).hierarchy) :
    (∃ order, ((a.linearization home).run w.store).1 = .ok order ∧ ∀ name ∈ order,
      name ∈ (w.store.object o).hierarchy ∧
      Value.cast w.store (.object o) (.named name) = .ok (.object o)) ∧
    (∀ (other : Object) (name : String) (caller : Caller) (v : Variable),
      other.index < w.store.instances.size → (w.store.object other).definition = a →
      caller ≠ (w.store.classOf a).identity →
      other.member w.store name caller = .ok (.own,v) →
      (w.store.definitionOf o).privateVariables.get? name = none →
      ∃ shown, o.member w.store name caller = .ok (.own,shown) ∧
        o.getMember w.store name caller = .ok shown.value) ∧
    (∀ (near far : Scope) (name : String) (caller : Caller) (f : Function β),
      home ∈ w.store.chain near → home ∈ w.store.chain far → a.Finds w near name caller f →
      ¬((w.store.definitionOf o).publicFunctions.get? name = none ∧
        (w.store.definitionOf o).privateFunctions.get? name ≠ none ∧
        caller ≠ (w.store.definitionOf o).identity) →
      ∃ g, (w.store.object o).definition.Finds w far name caller g ∧ g.name = name) := by
  obtain ⟨houses,populated⟩ := Populated.reaches blank present reached
  have furnished := populated.furnished o made
  obtain ⟨order,recorded,within⟩ :=
    populated.coherent.within registered furnished.recorded named
  refine ⟨⟨order,?_,fun name member => ?_⟩,?_,?_⟩
  · rw [ClassId.linearization_of_recorded recorded]
  · have inherited := within.subset member
    refine ⟨inherited,?_⟩
    simp [Value.cast,Value.castObject,Object.isInstanceOf,inherited]
  · intro other name caller v present kind outsider exposed unhidden
    have ancestral := populated.furnished other present
    have hierarchy : (w.store.object other).hierarchy = order := by
      have again := ancestral.recorded
      rw [kind,recorded] at again
      exact (Option.some.inj again).symm
    obtain ⟨found,shown | own⟩ := Object.member_eq_own_iff.mp exposed
    · obtain ⟨shown,found,visible⟩ := furnished.exists_shown_of_subset ancestral populated houses
        (hierarchy ▸ within.subset) found shown unhidden
      have readable : o.member w.store name caller = .ok (.own,shown) :=
        Object.member_eq_own_iff.mpr ⟨found,.inl visible⟩
      exact ⟨shown,readable,by rw [Object.getMember,readable]; rfl⟩
    · rw [Store.definitionOf,kind] at own
      contradiction
  · intro near far name caller f inside inside' finds allowed
    exact populated.exists_finds houses furnished.recorded recorded within.subset inside inside'
      finds (fun refused => allowed (Class.offer_eq_denied_iff.mp refused))

/-- In the diamond the child that hides what it takes over stands between the bottom and the top,
and takes nothing from the bottom. -/
theorem instance_substitutable_diamond :
    Value.cast Diamond.world.store (.object ⟨0⟩) (.named "m.A") = .ok (.object ⟨0⟩) ∧
    (∃ shown, Object.member ⟨0⟩ Diamond.world.store "X" .outside = .ok (.own,shown) ∧
      Object.getMember ⟨0⟩ Diamond.world.store "X" .outside = .ok shown.value) ∧
    ∃ g, ClassId.Finds ⟨3⟩ Diamond.world Diamond.inner "RUN" .outside g ∧ g.name = "RUN" := by
  have sound : Diamond.top.Declared ∧ Diamond.left.Declared ∧ Diamond.right.Declared ∧
      Diamond.bottom.Declared :=
    ⟨((Class.Declared.new "A" "m" []).withVariable _).withFunction _ _,
      ((Class.Declared.new "B" "m" ["A"]).withVariable _).withFunction _ _,
      .new "C" "m" ["m.A"],.new "D" "m" ["B","C"]⟩
  have stands := @instance_substitutable Unit Unit Diamond.global ⟨0⟩ .idle Diamond.start
    Diamond.world ⟨0⟩ (.create defaultCallDepth false) (by decide) (Diamond.reached True sound)
    (by decide) rfl (by decide)
  obtain ⟨⟨order,computed,casts⟩,members,methods⟩ := stands
  have finds : ClassId.Finds ⟨0⟩ Diamond.world Diamond.global "RUN" .outside
      (Diamond.method.withKind .method) := fun _ => rfl
  refine ⟨(casts "m.A" ?_).2,members ⟨1⟩ "X" .outside Diamond.member (by decide) rfl (by decide)
    rfl rfl,methods Diamond.global Diamond.inner "RUN" .outside _ (by decide) (by decide) finds
    (by decide)⟩
  obtain rfl : order = ["m.A"] := (Except.ok.inj computed).symm
  decide

end ObjectModel
