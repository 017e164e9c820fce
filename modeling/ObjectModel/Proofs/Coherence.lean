import ObjectModel.Proofs.Home

/-! The memo over whole histories. The parents of classes may be replaced at any time, so that what
is recorded no longer follows from what is declared; still the recorded orders fit together. Each
begins with its class, repeats nothing, and contains the recorded order of every class it names.
What keeps repetitions out is that a class without an entry is named in no entry. -/
namespace ObjectModel

variable {β σ : Type} {home scope : Scope} {store later : Store β} {memo after : Memo}
  {c d : ClassId} {order : List String}

structure Coherent (home : Scope) (store : Store β) (memo : Memo) : Prop where
  registers : ∀ c order, memo.get? c = some order → home.Registers store c
  head : ∀ c order, memo.get? c = some order →
    order.head? = some (store.classOf c).qualifiedName
  nodup : ∀ c order, memo.get? c = some order → order.Nodup
  entries : ∀ c order, memo.get? c = some order → ∀ name ∈ order,
    ∃ d inner, home.Registers store d ∧ (store.classOf d).qualifiedName = name ∧
      memo.get? d = some inner ∧ inner.Sublist order

namespace Coherent

theorem mem_self (coherent : Coherent home store memo) (known : memo.get? c = some order) :
    (store.classOf c).qualifiedName ∈ order :=
  List.mem_of_head? (coherent.head c order known)

theorem not_mem (coherent : Coherent home store memo) (registered : home.Registers store d)
    (fresh : memo.get? d = none) (known : memo.get? c = some order) :
    (store.classOf d).qualifiedName ∉ order := by
  intro member
  obtain ⟨e,inner,other,named,recorded,_⟩ := coherent.entries c order known _ member
  obtain rfl := other.unique registered named
  rw [fresh] at recorded
  contradiction

/-- The merge takes its names from the parents' orders: the list of the parents adds none. -/
theorem mem_row {rows : List (ClassId × List String)} {rest : List String} {name : String}
    (coherent : Coherent home store memo)
    (known : ∀ row ∈ rows, memo.get? row.1 = some row.2)
    (merges : Linearization.Merges
      (rows.map (·.2) ++ [rows.map fun row => (store.classOf row.1).qualifiedName]) rest)
    (member : name ∈ rest) : ∃ row ∈ rows, name ∈ row.2 := by
  obtain ⟨source,present,holds⟩ := merges.mem_iff.mp member
  rcases List.mem_append.mp present with inherited | listed
  · obtain ⟨row,inside,rfl⟩ := List.mem_map.mp inherited
    exact ⟨row,inside,holds⟩
  · rw [List.mem_singleton.mp listed] at holds
    obtain ⟨row,inside,rfl⟩ := List.mem_map.mp holds
    exact ⟨row,inside,coherent.mem_self (known row inside)⟩

theorem row_sublist {rows : List (ClassId × List String)} {rest : List String}
    (merges : Linearization.Merges
      (rows.map (·.2) ++ [rows.map fun row => (store.classOf row.1).qualifiedName]) rest)
    {row : ClassId × List String} (member : row ∈ rows) : row.2.Sublist rest :=
  merges.sublist (List.mem_append_left _ (List.mem_map_of_mem member))

theorem record (coherent : Coherent home store memo)
    (step : Records store scope (home.Registers store) memo after) :
    Coherent home store after := by
  have kept := step.extends
  obtain ⟨registered,fresh,⟨found,rest,rfl,merges⟩,known⟩ := step
  rename_i c rows
  have recorded := Memo.get?_record_self fresh ((store.classOf c).qualifiedName :: rest)
  refine ⟨fun d order entry => ?_,fun d order entry => ?_,fun d order entry => ?_,
    fun d order entry name member => ?_⟩
  all_goals rcases Memo.get?_record_cases fresh entry with ⟨rfl,rfl⟩ | old
  · exact registered
  · exact coherent.registers d order old
  · rfl
  · exact coherent.head d order old
  · -- The class had no entry before, so no row of the merge names it.
    refine List.nodup_cons.mpr ⟨fun again => ?_,merges.nodup⟩
    obtain ⟨row,inside,holds⟩ := coherent.mem_row known merges again
    exact coherent.not_mem registered fresh (known row inside) holds
  · exact coherent.nodup d order old
  · rcases List.mem_cons.mp member with rfl | inherited
    · exact ⟨d,_,registered,rfl,recorded,.refl _⟩
    · obtain ⟨row,inside,holds⟩ := coherent.mem_row known merges inherited
      obtain ⟨e,inner,other,named,entry,within⟩ :=
        coherent.entries row.1 row.2 (known row inside) name holds
      exact ⟨e,inner,other,named,kept e inner entry,
        (within.trans (row_sublist merges inside)).cons _⟩
  · obtain ⟨e,inner,other,named,entry,within⟩ := coherent.entries d order old name member
    exact ⟨e,inner,other,named,kept e inner entry,within⟩

/-- Entries go on fitting together while classes are added or get other parents. -/
theorem evolves (coherent : Coherent home store memo) (houses : home.Houses store)
    (evolves : Evolves home store later) : Coherent home later memo := by
  have named : ∀ c, home.Registers store c →
      (later.classOf c).qualifiedName = (store.classOf c).qualifiedName :=
    fun c registered => evolves.qualifiedName (houses.lt_size registered)
  refine ⟨fun c order known => ?_,fun c order known => ?_,coherent.nodup,
    fun c order known name member => ?_⟩
  · exact evolves.registers houses (coherent.registers c order known)
  · rw [named c (coherent.registers c order known)]
    exact coherent.head c order known
  · obtain ⟨d,inner,registered,rfl,entry,within⟩ := coherent.entries c order known name member
    exact ⟨d,inner,evolves.registers houses registered,named d registered,entry,within⟩

theorem change {definable : Class β → Prop} {reparenting : Prop} (houses : home.Houses store)
    (change : Change home definable reparenting store later)
    (coherent : Coherent home store store.memo) : Coherent home later later.memo := by
  have grown := change.evolves houses
  cases change with
  | enter | define | reparent | create => exact coherent.evolves houses grown
  | record inside step => exact (coherent.record step).evolves houses grown

theorem of_empty (empty : memo = []) : Coherent home store memo := by
  have unrecorded : ∀ c, memo.get? c = none := by simp [empty,Memo.get?]
  constructor <;> intro c order known
  all_goals simp [unrecorded c] at known

theorem reaches {definable : Class β → Prop} {reparenting : Prop} {host : Host β σ}
    {start w : World β σ} (blank : start.store.Blank)
    (present : home.index < start.store.frames.size)
    (reached : World.Reaches host (home.Admits definable reparenting) start w) :
    home.Houses w.store ∧ Coherent home w.store w.store.memo := by
  have kept : ∀ store later : Store β, home.Houses store →
      Change home definable reparenting store later → Coherent home store store.memo →
      Coherent home later later.memo := fun _ _ => change
  exact (blank.houses present).reaches kept (.of_empty blank.unrecorded) reached

end Coherent

/-- Along every history each recorded order begins with its class, repeats no name, names only
registered classes that have recorded orders of their own, contains these in their order, and
stays. -/
theorem recorded_orders_coherent {host : Host β σ} {start w last : World β σ}
    (blank : start.store.Blank) (present : home.index < start.store.frames.size)
    (reached : World.Reaches host (home.Admits (fun _ => True) True) start w)
    (continued : World.Reaches host (home.Admits (fun _ => True) True) w last)
    (recorded : c.recorded? w.store = some order) :
    order.head? = some (w.store.classOf c).qualifiedName ∧ order.Nodup ∧
    (∀ name ∈ order, ∃ d inner, home.Registers w.store d ∧
      (w.store.classOf d).qualifiedName = name ∧ d.recorded? w.store = some inner ∧
      inner.Sublist order) ∧
    c.recorded? last.store = some order := by
  obtain ⟨houses,coherent⟩ := Coherent.reaches blank present reached
  exact ⟨coherent.head c order recorded,coherent.nodup c order recorded,
    coherent.entries c order recorded,(houses.evolves continued).memo c order recorded⟩

def Diamond.rewired : World Unit Unit :=
  (Move.ask { runtime := Diamond.runtime, scope := Diamond.global }
    (.setParents ⟨1⟩ ["D"])).perform .idle Diamond.world

theorem recorded_orders_coherent_diamond :
    (∀ name ∈ ["m.D","m.B","m.C","m.A"], ∃ d inner,
      Diamond.global.Registers Diamond.world.store d ∧
      (Diamond.world.store.classOf d).qualifiedName = name ∧
      d.recorded? Diamond.world.store = some inner ∧
      inner.Sublist ["m.D","m.B","m.C","m.A"]) ∧
    ClassId.recorded? ⟨3⟩ Diamond.rewired.store = some ["m.D","m.B","m.C","m.A"] := by
  have continued : World.Reaches .idle (Diamond.global.Admits (fun _ => True) True) Diamond.world
      Diamond.rewired := World.Reaches.start.move ⟨trivial,rfl⟩
  have coherent := recorded_orders_coherent (.create defaultCallDepth false) (by decide)
    (Diamond.reached True ⟨trivial,trivial,trivial,trivial⟩) continued
    (show ClassId.recorded? ⟨3⟩ Diamond.world.store = some ["m.D","m.B","m.C","m.A"] from rfl)
  exact ⟨coherent.2.2.1,coherent.2.2.2⟩

end ObjectModel
