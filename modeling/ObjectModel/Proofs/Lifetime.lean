import ObjectModel.Proofs.ClassCast
import ObjectModel.Proofs.Revision
import ObjectModel.Proofs.SharedCall

/-! What an instance keeps for life. No event changes the class, the scope or the hierarchy of an
instance, and none the order recorded for its class. So the hierarchy of an instance and the order
of its class never drift apart, and both ways to a method agree, whatever becomes of the classes.
Nor does an event change the names of a class that is there. So an instance belongs to the same
classes and casts to the same types as long as it lives: the scopes are asked, but the answer is in
the hierarchy. -/
namespace ObjectModel

variable {β σ : Type}

namespace Store

/-- Instances keep their classes, scopes and hierarchies. -/
structure Abides (store later : Store β) : Prop where
  made : store.instances.size ≤ later.instances.size
  same : ∀ o : Object, o.index < store.instances.size →
    (later.object o).definition = (store.object o).definition ∧
    (later.object o).scope = (store.object o).scope ∧
    (later.object o).hierarchy = (store.object o).hierarchy

variable {store later : Store β}

theorem Abides.refl (store : Store β) : store.Abides store :=
  ⟨Nat.le_refl _,fun _ _ => ⟨rfl,rfl,rfl⟩⟩

theorem Abides.trans {last : Store β} (first : store.Abides later) (second : later.Abides last) :
    store.Abides last where
  made := Nat.le_trans first.made second.made
  same o old := by
    obtain ⟨definition,scope,hierarchy⟩ := first.same o old
    obtain ⟨definition',scope',hierarchy'⟩ :=
      second.same o (Nat.lt_of_lt_of_le old first.made)
    exact ⟨definition'.trans definition,scope'.trans scope,hierarchy'.trans hierarchy⟩

end Store

theorem Alteration.abides {l : Licence β} {store later : Store β}
    (alteration : Alteration l store later) : store.Abides later where
  made := alteration.grows.instances
  same o old := by
    rcases alteration.object o with lasts | ⟨absent,_⟩
    · exact ⟨lasts.definition,lasts.scope,lasts.hierarchy⟩
    · omega

theorem Alters.abides {l : Licence β} {store later : Store β} (alters : Alters l store later) :
    store.Abides later := by
  induction alters with
  | refl => exact .refl store
  | tail _ alteration ih => exact ih.trans alteration.abides

section

variable {host : Host β σ} {rule : List (Store β) → Event β σ → Prop} {start w : World β σ}
  {past : List (Store β)}

theorem World.Attains.abides (attained : Attains host rule start past w) :
    start.store.Abides w.store :=
  attained.holds (fun _ store => start.store.Abides store)
    (fun _ w e abides _ => abides.trans (e.alters host w).abides) (.refl start.store)

end

theorem ClassId.object_of_instantiate {c : ClassId} {scope : Scope} {store later : Store β}
    {o : Object} (made : (c.instantiate scope).run store = (.ok o,later)) :
    (later.object o).definition = c ∧ (later.object o).scope = some scope := by
  obtain ⟨hierarchy,members,_,_,added⟩ := ClassId.eq_addObject_of_instantiate made
  have itself : later.object o = { definition := c, scope := some scope, hierarchy, members } := by
    obtain ⟨rfl,rfl⟩ := Prod.mk.inj added
    exact Store.object_addObject_self _ _
  rw [itself]
  exact ⟨rfl,rfl⟩

namespace Store

def Rooted (store : Store β) : Prop :=
  ∀ o : Object, o.index < store.instances.size →
    (store.object o).definition.index < store.classes.size

def Titles (store later : Store β) : Prop :=
  ∀ c : ClassId, c.index < store.classes.size → c.index < later.classes.size ∧
    (later.classOf c).name = (store.classOf c).name ∧
    (later.classOf c).qualifiedName = (store.classOf c).qualifiedName

variable {store later last : Store β}

theorem Titles.trans (first : store.Titles later) (second : later.Titles last) :
    store.Titles last := by
  intro c old
  obtain ⟨present,name,qualified⟩ := first c old
  obtain ⟨present',name',qualified'⟩ := second c present
  exact ⟨present',name'.trans name,qualified'.trans qualified⟩

end Store

theorem Alters.rooted {l : Licence β} {store later : Store β} (alters : Alters l store later)
    (rooted : store.Rooted) (there : ∀ c, l.makes c → c.index < store.classes.size) :
    later.Rooted := by
  induction alters with
  | refl => exact rooted
  | tail before alteration ih =>
    intro o present
    refine Nat.lt_of_lt_of_le ?_ alteration.grows.classes
    rcases alteration.object o with lasts | ⟨_,fresh⟩
    · rw [lasts.definition]
      exact ih o (lasts.present present)
    · exact Nat.lt_of_lt_of_le (there _ fresh.made) (Alters.grows before).classes

namespace Event

def Rooted : List (Store β) → Event β σ → Prop
  | store :: _, .move (.ask _ (.instantiate c)) | store :: _, .move (.ask _ (.detach c)) =>
    c.index < store.classes.size
  | _, _ => True

theorem titles (host : Host β σ) (w : World β σ) (e : Event β σ) :
    w.store.Titles (e.perform host w).store := by
  intro c old
  have alters := e.alters host w
  refine ⟨Nat.lt_of_lt_of_le old alters.grows.classes,?_⟩
  rcases alters.classOf c with ⟨parents,sharedVariables,same,_⟩ | ⟨absent,_⟩
  · rw [same]
    exact ⟨rfl,rfl⟩
  · omega

theorem rooted_perform {host : Host β σ} {w : World β σ} {past : List (Store β)} {e : Event β σ}
    (labelled : w.store.Labelled) (rooted : w.store.Rooted) (admitted : Rooted (w.store :: past) e) :
    (e.perform host w).store.Rooted := by
  refine (e.alters host w).rooted rooted fun c makes => ?_
  cases e with
  | move m =>
    cases m with
    | enter outer => exact makes.elim
    | ask ctx request =>
      cases request with
      | instantiate d | detach d =>
        obtain rfl : c = d := makes
        exact admitted
      | newObject name =>
        obtain ⟨home,bound⟩ := Scope.exists_of_lookupClass makes
        exact (labelled home name c bound).1
      | _ => exact makes.elim
  | keep | start | found => exact makes.elim

end Event

section

variable {host : Host β σ} {rule : List (Store β) → Event β σ → Prop} {start w : World β σ}
  {past : List (Store β)}

theorem World.Attains.titles (attained : Attains host rule start past w) :
    start.store.Titles w.store :=
  attained.holds (fun _ store => start.store.Titles store)
    (fun _ w e titles _ => titles.trans (e.titles host w)) fun _ present => ⟨present,rfl,rfl⟩

theorem World.Attains.rooted {state : σ} (attained : Attains host rule ⟨.empty,state⟩ past w)
    (grounded : ∀ stores e, rule stores e → Event.Rooted stores e) : w.store.Rooted := by
  have both : w.store.Labelled ∧ w.store.Rooted :=
    attained.holds (fun _ store => store.Labelled ∧ store.Rooted)
      (fun _ w e kept admitted => ⟨(e.alters host w).labelled kept.1,
        Event.rooted_perform kept.1 kept.2 (grounded _ e admitted)⟩)
      ⟨nofun,nofun⟩
  exact both.2

end

/-- An instance, from the moment it is made in a scope. Whatever happens then, it stays an instance
of its class made in that scope, its hierarchy is the order recorded for the class, and so is that
of every other instance of the class that was made in some scope. Under every name and for every
caller the instance has the method that its class resolves from the scope, or the same error; and
handlers are asked the same. -/
theorem dispatch_agrees_for_life {host : Host β σ}
    {rule allowed : List (Store β) → Event β σ → Prop} {state : σ} {past since : List (Store β)}
    {w v : World β σ} {c : ClassId} {scope : Scope} {o : Object} {after : Store β}
    (attained : World.Attains host rule ⟨.empty,state⟩ past w)
    (made : (c.instantiate scope).run w.store = (.ok o,after))
    (later : World.Attains host allowed ⟨after,w.host⟩ since v) :
    ((v.store.object o).definition = c ∧ (v.store.object o).scope = some scope) ∧
    (v.store.object o).hierarchy = (after.object o).hierarchy ∧
    c.recorded? v.store = some (v.store.object o).hierarchy ∧
    (∀ p, (v.store.object p).definition = c → (v.store.object p).scope ≠ none →
      (v.store.object p).hierarchy = (v.store.object o).hierarchy) ∧
    ∀ supply name caller,
      (o.dispatch supply name caller).run v = (c.resolve supply scope name caller).run v := by
  have alters := (Request.instantiate c).alters host { runtime := .first, scope } w
  have after' : (((Request.instantiate c).perform host { runtime := .first, scope }).run w).2.store =
      after := congrArg Prod.snd made
  rw [after'] at alters
  have ordered : v.store.Ordered := later.ordered_of (alters.ordered attained.ordered)
  have present : o.index < after.instances.size := ClassId.lt_size_of_instantiate made
  obtain ⟨definition,home,hierarchy⟩ := later.abides.same o present
  obtain ⟨class',scope'⟩ := ClassId.object_of_instantiate made
  have definition : (v.store.object o).definition = c := definition.trans class'
  have home : (v.store.object o).scope = some scope := home.trans scope'
  have recorded : ∀ p, (v.store.object p).definition = c → (v.store.object p).scope ≠ none →
      v.store.memo.get? c = some (v.store.object p).hierarchy := by
    rintro p rfl placed
    obtain ⟨elsewhere,placed⟩ := Option.ne_none_iff_exists'.mp placed
    exact ordered p elsewhere placed
  have own := recorded o definition (by simp [home])
  refine ⟨⟨definition,home⟩,hierarchy,own,fun p same placed => ?_,fun supply name caller => ?_⟩
  · exact Option.some.inj ((recorded p same placed).symm.trans own)
  · rw [Object.dispatch_eq_resolve ordered home,definition]

/-! A class that inherits a method. Once there is an object of it, its parents are taken away, the
scope is cleared, a namesake of the ancestor hides the method, and another object is made in a scope
inside. -/
namespace Heirloom

def ctx : Context := Runtime.first.globalContext

def inner : Context := { ctx with scope := ⟨1⟩ }

def method : Function Unit := { name := "RUN", body := .native (), kind := .method }

def bare : Class Unit := { name := "A", modulePath := "m" }

def heir : Class Unit := { name := "C", modulePath := "m", parents := ["A"] }

def events : List (Event Unit Unit) :=
  [.found defaultCallDepth false,
    .move (.ask ctx (.defineClass (bare.declareFunction method .shown))),
    .move (.ask ctx (.defineClass heir))]

def world : World Unit Unit := World.replay .idle ⟨.empty,()⟩ events

theorem attained : ∃ past, World.Attains .idle Event.Rooted ⟨.empty,()⟩ past world := by
  have conforms : World.Conforms .idle Event.Rooted [] ⟨.empty,()⟩ events :=
    ⟨trivial,trivial,trivial,trivial⟩
  exact ⟨_,.series .start conforms⟩

def born : World Unit Unit := ⟨((ClassId.instantiate ⟨1⟩ ctx.scope).run world.store).2,()⟩

def upheaval : List (Event Unit Unit) :=
  [.move (.ask ctx (.setParents ⟨1⟩ [])),.move (.ask ctx .clearScope),
    .move (.ask ctx (.defineClass (bare.declareFunction method .hidden))),
    .move (.enter ctx.scope),.move (.ask inner (.instantiate ⟨1⟩))]

def later : World Unit Unit := World.replay .idle born upheaval

theorem lives : ∃ since, World.Attains .idle (fun _ _ => True) born since later := by
  have conforms : World.Conforms .idle (fun _ _ => True) [] born upheaval :=
    ⟨trivial,trivial,trivial,trivial,trivial,trivial⟩
  exact ⟨_,.series .start conforms⟩

end Heirloom

theorem dispatch_agrees_for_life_heirloom :
    (Object.dispatch Host.idle.supply ⟨0⟩ "RUN" .outside).run Heirloom.born =
      (.ok Heirloom.method,Heirloom.born) ∧
    (ClassId.resolve Host.idle.supply ⟨1⟩ Heirloom.ctx.scope "RUN" .outside).run Heirloom.later =
      (.error (.inaccessible .memberFunction "RUN"),Heirloom.later) ∧
    (Heirloom.later.store.object ⟨1⟩).hierarchy = ["m.C","m.A"] := by
  obtain ⟨_,attained⟩ := Heirloom.attained
  obtain ⟨_,lives⟩ := Heirloom.lives
  have made : (ClassId.instantiate ⟨1⟩ Heirloom.ctx.scope).run Heirloom.world.store =
      (.ok ⟨0⟩,Heirloom.born.store) := rfl
  obtain ⟨_,hierarchy,_,others,agrees⟩ := dispatch_agrees_for_life attained made lives
  refine ⟨rfl,?_,?_⟩
  · exact (agrees Host.idle.supply "RUN" .outside).symm.trans rfl
  · exact (others ⟨1⟩ rfl nofun).trans (hierarchy.trans rfl)

theorem Object.isInstanceOf_iff_descends {store : Store β} (labelled : store.Labelled) {o : Object}
    {name : String} : o.isInstanceOf store name = true ↔ (store.object o).Descends name :=
  ⟨descends_of_isInstanceOf labelled,isInstanceOf_of_descends⟩

/-- Casts of an object hang on what it is an instance of and on the names of its class. -/
theorem Value.cast_object_congr {store later : Store β} {o : Object}
    (member : ∀ name, o.isInstanceOf later name = o.isInstanceOf store name)
    (name : (later.definitionOf o).name = (store.definitionOf o).name)
    (qualified : (later.definitionOf o).qualifiedName = (store.definitionOf o).qualifiedName)
    (type : TypeName) : (Value.object o).cast later type = (Value.object o).cast store type := by
  cases type <;> simp only [cast,castObject,text,member,name,qualified]

/-- Whether an object is an instance of a class, by name. It is, exactly if the name is an entry of
its hierarchy or the last part of one, whatever the name means in the scope of the object. So where
instances are made of classes that are there, a cast of the object to any type has the same outcome
for good, be it a value or an error, whatever happens to the classes. -/
theorem membership_lasts {host : Host β σ} {rule allowed : List (Store β) → Event β σ → Prop}
    {state : σ} {past since : List (Store β)} {w v : World β σ}
    (attained : World.Attains host rule ⟨.empty,state⟩ past w)
    (later : World.Attains host allowed w since v) (o : Object) :
    (∀ name, o.isInstanceOf w.store name = true ↔
      ∃ entry ∈ (w.store.object o).hierarchy,
        entry = name ∨ ∃ front, entry = front ++ "." ++ name) ∧
    ((∀ stores e, rule stores e → Event.Rooted stores e) → o.index < w.store.instances.size →
      ∀ type, (Value.object o).cast v.store type = (Value.object o).cast w.store type) := by
  have labelled := attained.labelled
  refine ⟨fun name => ?_,fun grounded made type => ?_⟩
  · rw [Object.isInstanceOf_iff_descends labelled,Instance.descends_iff]
    constructor
    · rintro (member | ⟨front,member⟩)
      · exact ⟨name,member,.inl rfl⟩
      · exact ⟨_,member,.inr ⟨front,rfl⟩⟩
    · rintro ⟨entry,member,rfl | ⟨front,rfl⟩⟩
      · exact .inl member
      · exact .inr ⟨front,member⟩
  · obtain ⟨definition,_,hierarchy⟩ := later.abides.same o made
    obtain ⟨_,name,qualified⟩ := later.titles _ (attained.rooted grounded o made)
    have member : ∀ name, o.isInstanceOf v.store name = o.isInstanceOf w.store name := by
      intro name
      rw [Bool.eq_iff_iff,Object.isInstanceOf_iff_descends (later.labelled_of labelled),
        Object.isInstanceOf_iff_descends labelled,Instance.Descends,hierarchy,Instance.Descends]
    refine Value.cast_object_congr member ?_ ?_ type
    · rw [Store.definitionOf,definition]
      exact name
    · rw [Store.definitionOf,definition]
      exact qualified

/-- The class of the object is found no more, and casts of the object come out as they did. -/
theorem membership_lasts_heirloom :
    Heirloom.ctx.scope.lookupClass Heirloom.later.store "C" =
      .error (.notFound .classDefinition "C") ∧
    (Value.object ⟨0⟩).cast Heirloom.later.store (.named "C") = .ok (.object ⟨0⟩) ∧
    (Value.object ⟨0⟩).cast Heirloom.later.store (.named "k.A") =
      .error (.cast "C" "k.A" [.outsideHierarchy "k.A" "m.C"]) := by
  obtain ⟨past,attained⟩ := Heirloom.attained
  obtain ⟨_,lives⟩ := Heirloom.lives
  have present : ClassId.index ⟨1⟩ < Heirloom.world.store.classes.size := by decide
  have born : World.Attains .idle Event.Rooted ⟨.empty,()⟩ (Heirloom.world.store :: past)
      Heirloom.born :=
    attained.event (e := .move (.ask Heirloom.ctx (.instantiate ⟨1⟩))) present
  obtain ⟨_,lasts⟩ := membership_lasts born lives ⟨0⟩
  have still := lasts (fun _ _ admitted => admitted) (by decide)
  exact ⟨rfl,(still (.named "C")).trans rfl,(still (.named "k.A")).trans rfl⟩

end ObjectModel
