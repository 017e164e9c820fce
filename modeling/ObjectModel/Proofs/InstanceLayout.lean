import ObjectModel.Proofs.Layout
import ObjectModel.Proofs.Precedence
import ObjectModel.Proofs.Revision

/-! The members of a new instance: which declarations they are copies of, and in what order they
are listed. Values and positions go by opposite ends of the same walk. The walk starts at the far
end of the order, a name keeps the place where it is met first, and the declaration that is met last
stays. So the class itself decides what a member is, and its remotest ancestor where it stands. -/
namespace ObjectModel

variable {β σ : Type}

namespace Table

variable {α : Type} {t : Table α}

theorem names_insert (t : Table α) (name : String) (value : α) :
    (t.insert name value).names = if name ∈ t.names then t.names else t.names ++ [name] := by
  obtain ⟨entries⟩ := t
  change (put name value entries).map (·.1) =
    if name ∈ entries.map (·.1) then entries.map (·.1) else entries.map (·.1) ++ [name]
  induction entries with
  | nil => rfl
  | cons entry rest ih =>
    obtain ⟨key,old⟩ := entry
    by_cases same : key = name
    · simp [put,same]
    · simp only [put,same,if_false,List.map_cons,ih,List.mem_cons,Ne.symm same,false_or]
      split <;> rfl

theorem nodup_names_merge (distinct : t.names.Nodup) (other : Table α) :
    (t.merge other).names.Nodup := by
  unfold merge
  induction other.entries generalizing t with
  | nil => exact distinct
  | cons entry rest ih => exact ih (nodup_names_insert distinct entry.1 entry.2)

end Table

theorem eraseDups_of_nodup {names : List String} (distinct : names.Nodup) :
    names.eraseDups = names := by
  induction names with
  | nil => rfl
  | cons name rest ih =>
    obtain ⟨absent,others⟩ := List.nodup_cons.mp distinct
    have kept : rest.filter (fun other => !other == name) = rest := by
      refine List.filter_eq_self.mpr fun other member => ?_
      have apart : other ≠ name := fun same => absent (same ▸ member)
      simpa using apart
    rw [List.eraseDups_cons,kept,ih others]

theorem eraseDups_append_cons {name : String} {names : List String} (met : name ∈ names)
    (rest : List String) : (names ++ name :: rest).eraseDups = (names ++ rest).eraseDups := by
  rw [List.eraseDups_append,List.eraseDups_append,List.cons_removeAll]
  simp [met]

theorem eraseDups_eraseDups_append {names : List String} (distinct : names.eraseDups.Nodup)
    (rest : List String) : (names.eraseDups ++ rest).eraseDups = (names ++ rest).eraseDups := by
  have same : rest.removeAll names.eraseDups = rest.removeAll names := by
    refine List.filter_congr fun name _ => ?_
    simp
  rw [List.eraseDups_append,List.eraseDups_append,eraseDups_of_nodup distinct,same]

theorem Table.names_merge {α : Type} {t : Table α} (distinct : t.names.Nodup) (other : Table α) :
    (t.merge other).names = (t.names ++ other.names).eraseDups := by
  obtain ⟨entries⟩ := other
  change (entries.foldl (fun table entry => table.insert entry.1 entry.2) t).names =
    (t.names ++ entries.map (·.1)).eraseDups
  induction entries generalizing t with
  | nil => simp [eraseDups_of_nodup distinct]
  | cons entry rest ih =>
    obtain ⟨key,value⟩ := entry
    rw [List.foldl_cons,ih (nodup_names_insert distinct key value),names_insert,List.map_cons]
    split
    next met => rw [eraseDups_append_cons met]
    next => rw [List.append_assoc,List.singleton_append]

namespace ClassId

variable {store : Store β} {scope : Scope} {c : ClassId}

/-- The names that an entry of the hierarchy brings, in the order it brings them. -/
def contributed (store : Store β) (scope : Scope) (c : ClassId) (entry : String) : List String :=
  match ancestor store scope c entry with
  | .ok d => (store.classOf d).publicVariables.names ++
    if d = c then (store.classOf c).privateVariables.names else []
  | .error _ => []

theorem names_overlaid {members : Table Variable} (distinct : members.names.Nodup) (d : ClassId) :
    let next := if d = c then
        (members.merge (store.classOf d).publicVariables).merge (store.classOf c).privateVariables
      else members.merge (store.classOf d).publicVariables
    next.names = (members.names ++ ((store.classOf d).publicVariables.names ++
      if d = c then (store.classOf c).privateVariables.names else [])).eraseDups ∧
    next.names.Nodup := by
  have shown := Table.nodup_names_merge distinct (store.classOf d).publicVariables
  have listed := Table.names_merge distinct (store.classOf d).publicVariables
  by_cases same : d = c
  · simp only [if_pos same]
    refine ⟨?_,Table.nodup_names_merge shown _⟩
    rw [Table.names_merge shown,listed,eraseDups_eraseDups_append (listed ▸ shown),
      List.append_assoc]
  · simp only [if_neg same,List.append_nil]
    exact ⟨listed,shown⟩

theorem names_layout {entries : List String} {members result : Table Variable}
    (distinct : members.names.Nodup)
    (laid : layout store scope c entries members = .ok result) :
    result.names = (members.names ++ entries.flatMap (contributed store scope c)).eraseDups ∧
      result.names.Nodup := by
  induction entries generalizing members with
  | nil =>
    obtain rfl := Except.ok.inj laid
    simp [eraseDups_of_nodup distinct,distinct]
  | cons entry rest ih =>
    rw [layout_cons] at laid
    cases found : ancestor store scope c entry with
    | error e =>
      rw [found] at laid
      contradiction
    | ok d =>
      rw [found] at laid
      obtain ⟨listed,still⟩ := names_overlaid distinct d
      obtain ⟨names,once⟩ := ih still laid
      have added : contributed store scope c entry = (store.classOf d).publicVariables.names ++
          if d = c then (store.classOf c).privateVariables.names else [] := by
        simp only [contributed,found]
      refine ⟨?_,once⟩
      rw [names,listed,eraseDups_eraseDups_append (listed ▸ still),List.flatMap_cons,added,
        List.append_assoc]

theorem layout_congr {other : Store β}
    (found : ∀ name, scope.lookupClass other name = scope.lookupClass store name)
    (classes : ∀ d, ∃ sharedVariables,
      other.classOf d = { store.classOf d with sharedVariables })
    (entries : List String) (members : Table Variable) :
    layout other scope c entries members = layout store scope c entries members := by
  have same : ∀ d, (other.classOf d).publicVariables = (store.classOf d).publicVariables ∧
      (other.classOf d).privateVariables = (store.classOf d).privateVariables ∧
      (other.classOf d).qualifiedName = (store.classOf d).qualifiedName := by
    intro d
    obtain ⟨_,body⟩ := classes d
    rw [body]
    exact ⟨rfl,rfl,rfl⟩
  induction entries generalizing members with
  | nil => rfl
  | cons entry rest ih => simp only [layout,found,same,ih]

/-- The entries behind the class stand for the classes that the scope shows, and none of them is
the class itself. -/
theorem ancestors_of_shows {names : List String} {ancestors : List ClassId}
    (shows : List.Forall₂ (scope.Shows store) names ancestors)
    (apart : (store.classOf c).qualifiedName ∉ names) :
    List.Forall₂ (fun entry d => ancestor store scope c entry = .ok d ∧ d ≠ c) names ancestors := by
  induction shows with
  | nil => exact .nil
  | @cons entry d names ancestors shown _ ih =>
    simp only [List.mem_cons,not_or] at apart
    obtain ⟨first,others⟩ := apart
    refine .cons ⟨?_,?_⟩ (ih others)
    · rw [ancestor,if_neg (Ne.symm first)]
      exact shown.1
    · rintro rfl
      exact first shown.2

/-- What the entries behind a class do, one by one, is what their classes do. -/
theorem map_ancestors {δ : Type} {names : List String} {ancestors : List ClassId}
    {f : String → δ} {g : ClassId → δ}
    (stand : List.Forall₂ (fun entry d => ancestor store scope c entry = .ok d ∧ d ≠ c) names
      ancestors)
    (same : ∀ entry d, ancestor store scope c entry = .ok d → d ≠ c → f entry = g d) :
    names.map f = ancestors.map g := by
  induction stand with
  | nil => rfl
  | cons first _ ih => rw [List.map_cons,List.map_cons,same _ _ first.1 first.2,ih]

variable {names : List String} {ancestors : List ClassId} {members : Table Variable}

/-- A member is a declaration of the class itself, or the first public one behind it. -/
theorem get?_layout_line (orderly : ∀ d, (store.classOf d).Orderly)
    (stand : List.Forall₂ (fun entry d => ancestor store scope c entry = .ok d ∧ d ≠ c) names
      ancestors)
    (laid : layout store scope c ((store.classOf c).qualifiedName :: names).reverse .empty =
      .ok members) (name : String) :
    members.get? name = ((store.classOf c).privateVariables.get? name).or
      (((store.classOf c).publicVariables.get? name).or
        (ancestors.findSome? fun d => (store.classOf d).publicVariables.get? name)) := by
  have distinct : Distinct store scope c ((store.classOf c).qualifiedName :: names) :=
    ⟨(orderly c).privateVariables.distinct,fun _ _ d _ => (orderly d).publicVariables.distinct⟩
  have further : names.map (inherited store scope c name) =
      ancestors.map fun d => (store.classOf d).publicVariables.get? name := by
    refine map_ancestors stand fun entry d found apart => ?_
    rw [inherited,found]
    simp only [declaration,if_neg apart,Option.none_or]
  have first : inherited store scope c name (store.classOf c).qualifiedName =
      ((store.classOf c).privateVariables.get? name).or
        ((store.classOf c).publicVariables.get? name) := by
    simp [inherited,ancestor,declaration]
  have behind : names.findSome? (inherited store scope c name) =
      ancestors.findSome? fun d => (store.classOf d).publicVariables.get? name := by
    simpa only [List.findSome?_map,Function.id_comp] using congrArg (List.findSome? id) further
  rw [get?_layout_reverse distinct laid,List.findSome?_cons,first,behind,← Option.or_assoc]
  cases ((store.classOf c).privateVariables.get? name).or
    ((store.classOf c).publicVariables.get? name) <;> rfl

/-- The walk ends at the class, which brings its private members last. -/
theorem names_layout_line
    (stand : List.Forall₂ (fun entry d => ancestor store scope c entry = .ok d ∧ d ≠ c) names
      ancestors)
    (laid : layout store scope c ((store.classOf c).qualifiedName :: names).reverse .empty =
      .ok members) :
    members.names = (ancestors.reverse.flatMap (fun d => (store.classOf d).publicVariables.names) ++
      (store.classOf c).publicVariables.names ++
      (store.classOf c).privateVariables.names).eraseDups ∧ members.names.Nodup := by
  have unlisted : (Table.empty : Table Variable).names.Nodup := List.nodup_nil
  obtain ⟨listed,once⟩ := names_layout unlisted laid
  have further : names.map (contributed store scope c) =
      ancestors.map fun d => (store.classOf d).publicVariables.names := by
    refine map_ancestors stand fun entry d found apart => ?_
    rw [contributed,found]
    simp only [if_neg apart,List.append_nil]
  have last : contributed store scope c (store.classOf c).qualifiedName =
      (store.classOf c).publicVariables.names ++ (store.classOf c).privateVariables.names := by
    simp [contributed,ancestor]
  refine ⟨?_,once⟩
  rw [listed,List.reverse_cons,List.flatMap_append,List.flatMap_singleton,last,List.flatMap_def,
    List.map_reverse,further,← List.map_reverse,← List.flatMap_def,List.append_assoc]
  rfl

end ClassId

/-- The members of a new instance. Each is a copy of the declaration of its class, the private one
before the public one, or else of the public one that comes first in the order behind the class.
So what is hidden in an instance is declared by its class itself. The members are listed once each,
by first appearance from the far end of the order to the class, whose private ones come last. -/
theorem instance_layout {host : Host β σ} {state : σ} {past : List (Store β)} {w : World β σ}
    {c : ClassId} {scope : Scope} {o : Object} {after : Store β} {order : List String}
    {ancestors : List ClassId} (attained : World.Attains host Event.Proper ⟨.empty,state⟩ past w)
    (made : (c.instantiate scope).run w.store = (.ok o,after))
    (ordered : ((c.linearization scope).run w.store).1 = .ok order) (distinct : order.Nodup)
    (shows : List.Forall₂ (scope.Shows w.store) order.tail ancestors) :
    let own := w.store.classOf c
    let line := ancestors.map w.store.classOf
    (∀ name, (after.object o).members.get? name =
      (own.privateVariables.get? name).or ((own.publicVariables.get? name).or
        (line.findSome? (·.publicVariables.get? name)))) ∧
    (∀ name v, (after.object o).members.get? name = some v → v.visibility = .hidden →
      own.privateVariables.get? name = some v) ∧
    o.memberNames after = (line.reverse.flatMap (·.publicVariables.names) ++
      own.publicVariables.names ++ own.privateVariables.names).eraseDups ∧
    (o.memberNames after).Nodup := by
  intro own line
  have sound := attained.sound
  obtain ⟨names,rfl⟩ := List.head?_eq_some_iff.mp (sound.head ordered)
  obtain ⟨hierarchy,members,again,laid,added⟩ := ClassId.eq_addObject_of_instantiate made
  obtain rfl := Except.ok.inj (ordered.symm.trans again)
  have given : (after.object o).members = members := by
    obtain ⟨rfl,rfl⟩ := Prod.mk.inj added
    exact congrArg Instance.members (Store.object_addObject_self _ _)
  -- The order may have been recorded only now, which changes nothing about the classes.
  have placed : ClassId.layout w.store scope c (own.qualifiedName :: names).reverse .empty =
      .ok members := by
    rw [← laid]
    apply ClassId.layout_congr
    · exact fun _ => rfl
    · exact fun d => ⟨(w.store.classOf d).sharedVariables,rfl⟩
  have stand : List.Forall₂ (fun entry d => ClassId.ancestor w.store scope c entry = .ok d ∧ d ≠ c)
      names ancestors := ClassId.ancestors_of_shows shows (List.nodup_cons.mp distinct).1
  have copies := ClassId.get?_layout_line sound.orderly stand placed
  have listed := ClassId.names_layout_line stand placed
  simp only [Object.memberNames,given,line,List.findSome?_map,← List.map_reverse,
    List.flatMap_map]
  refine ⟨copies,fun name v found hidden => ?_,listed⟩
  rw [copies name] at found
  rcases Option.or_eq_some_iff.mp found with secret | ⟨_,further⟩
  · exact secret
  · have shown : v.visibility = .shown := by
      rcases Option.or_eq_some_iff.mp further with first | ⟨_,behind⟩
      · exact (sound.orderly c).publicVariables.uniform name v first
      · obtain ⟨d,_,declared⟩ := List.exists_of_findSome?_eq_some behind
        exact (sound.orderly d).publicVariables.uniform name v declared
    rw [shown] at hidden
    contradiction

/-! Two classes that share names: the parent has two public variables and a private one, and the
class declares the second one anew and makes the first one private. -/
namespace Wardrobe

def field (name : String) (value : Int64) (visibility : Visibility) : Variable :=
  { Variable.dynamic name (.integer value) with visibility }

def parent : Class Unit :=
  ((Class.declareVariable { name := "A", modulePath := "m" } (field "X" 1 .shown)).declareVariable
    (field "Y" 2 .shown)).declareVariable (field "Z" 3 .hidden)

def derived : Class Unit :=
  (((Class.declareVariable { name := "B", modulePath := "m", parents := ["A"] }
    (field "X" 10 .hidden)).declareVariable (field "V" 40 .hidden)).declareVariable
    (field "W" 30 .shown)).declareVariable (field "Y" 20 .shown)

def events : List (Event Unit Unit) :=
  [.found defaultCallDepth false,.move (.ask Runtime.first.globalContext (.defineClass parent)),
    .move (.ask Runtime.first.globalContext (.defineClass derived))]

def world : World Unit Unit := World.replay .idle ⟨.empty,()⟩ events

def after : Store Unit :=
  ((ClassId.instantiate ⟨1⟩ Runtime.first.global).run world.store).2

theorem declared_parent : parent.Declared :=
  (((Class.Declared.new _ _ _).withVariable _).withVariable _).withVariable _

theorem declared_derived : derived.Declared :=
  ((((Class.Declared.new _ _ _).withVariable _).withVariable _).withVariable _).withVariable _

theorem attained : ∃ past, World.Attains .idle Event.Proper ⟨.empty,()⟩ past world := by
  have conforms : World.Conforms .idle Event.Proper [] ⟨.empty,()⟩ events :=
    ⟨⟨nofun,nofun⟩,⟨fun _ same => same ▸ declared_parent,nofun⟩,
      ⟨fun _ same => same ▸ declared_derived,nofun⟩,trivial⟩
  exact ⟨_,.series .start conforms⟩

end Wardrobe

theorem instance_layout_wardrobe :
    ((Wardrobe.after.object ⟨0⟩).members.get? "X" = some (Wardrobe.field "X" 10 .hidden) ∧
      (Wardrobe.after.object ⟨0⟩).members.get? "Y" = some (Wardrobe.field "Y" 20 .shown) ∧
      (Wardrobe.after.object ⟨0⟩).members.get? "Z" = none) ∧
    Object.memberNames ⟨0⟩ Wardrobe.after = ["X","Y","W","V"] := by
  obtain ⟨_,attained⟩ := Wardrobe.attained
  have made : (ClassId.instantiate ⟨1⟩ Runtime.first.global).run Wardrobe.world.store =
      (.ok ⟨0⟩,Wardrobe.after) := rfl
  have ordered : ((ClassId.linearization ⟨1⟩ Runtime.first.global).run Wardrobe.world.store).1 =
      .ok ["m.B","m.A"] := rfl
  have shows : List.Forall₂ (Runtime.first.global.Shows Wardrobe.world.store) ["m.A"] [⟨0⟩] :=
    .cons ⟨rfl,rfl⟩ .nil
  obtain ⟨copies,_,listed,_⟩ := instance_layout attained made ordered (by decide) shows
  exact ⟨⟨copies "X",copies "Y",copies "Z"⟩,listed⟩

end ObjectModel
