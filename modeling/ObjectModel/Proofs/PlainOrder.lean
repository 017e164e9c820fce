import Mathlib.Data.List.Perm.Subperm
import ObjectModel.Proofs.Home

/-! Linearization without a memo. `Linearizes` is the C3 order of a class by the inductive
definition; `plainOrder` is the recursion that computes it and records nothing. In a history that
keeps its classes at home and never replaces parents, the memo changes no answer: neither which
list is found nor which error is met first. -/
namespace ObjectModel

variable {β σ : Type} {home scope : Scope} {store later : Store β} {c d : ClassId}
  {order path : List String} {budget : Nat}

/-- The C3 order of a class: its name, then the merge of the orders of its parents as the scope
finds them, in declared order, with the list of the parents' names behind them. -/
inductive Linearizes (store : Store β) (scope : Scope) : ClassId → List String → Prop where
  | inherit {c : ClassId} {rows : List (ClassId × List String)} {order : List String}
      (inherits : Inherits store scope c rows order)
      (parents : ∀ row ∈ rows, Linearizes store scope row.1 row.2) :
      Linearizes store scope c order

theorem Linearizes.ancestor (linearizes : Linearizes store scope c order)
    (ancestor : Relation.ReflTransGen (Declares store scope) c d) :
    ∃ order, Linearizes store scope d order := by
  induction ancestor with
  | refl => exact ⟨order,linearizes⟩
  | tail _ declares ih =>
    obtain ⟨_,⟨inherits,parents⟩⟩ := ih
    obtain ⟨order,row⟩ := inherits.exists_row_of_declares declares
    exact ⟨order,parents _ row⟩

theorem Linearizes.acyclic (linearizes : Linearizes store scope c order) :
    ¬Relation.TransGen (Declares store scope) c c := by
  induction linearizes with
  | inherit inherits parents ih =>
    intro cycle
    obtain ⟨d,declares,back⟩ := Relation.TransGen.head'_iff.mp cycle
    obtain ⟨order,row⟩ := inherits.exists_row_of_declares declares
    exact ih _ row (.tail' back declares)

namespace ClassId

def plainParents (store : Store β) (scope : Scope)
    (visit : ClassId → Except Error (List String)) :
    List String → Except Error (List (String × List String))
  | [] => .ok []
  | parent :: rest => do
    let id ← scope.lookupClass store parent
    let order ← visit id
    let others ← plainParents store scope visit rest
    return ((store.classOf id).qualifiedName,order) :: others

/-- The recursion with no memo: nothing is looked up in one and nothing is left behind. -/
def plainOrder (store : Store β) (scope : Scope) :
    Nat → List String → ClassId → Except Error (List String)
  | 0,path,c => .error (.inconsistentHierarchy (store.classOf c).qualifiedName (.cycle path))
  | budget + 1,path,c =>
    let name := (store.classOf c).qualifiedName
    if name ∈ path then .error (.inconsistentHierarchy name (.cycle path))
    else do
      let parents ← plainParents store scope (plainOrder store scope budget (path ++ [name]))
        (store.classOf c).parents
      mergeParents name parents

theorem plainParents_eq_ok_iff {visit : ClassId → Except Error (List String)}
    {parents : List String} {named : List (String × List String)} :
    plainParents store scope visit parents = .ok named ↔
      ∃ rows : List (ClassId × List String),
        parents.map (scope.lookupClass store) = rows.map (.ok ·.1) ∧
        named = rows.map (fun row => ((store.classOf row.1).qualifiedName,row.2)) ∧
        ∀ row ∈ rows, visit row.1 = .ok row.2 := by
  induction parents generalizing named with
  | nil =>
    simp only [plainParents,List.map_nil,Except.ok.injEq]
    constructor
    · rintro rfl
      exact ⟨[],rfl,rfl,by simp⟩
    · rintro ⟨rows,empty,rfl,_⟩
      simp [List.map_eq_nil_iff.mp empty.symm]
  | cons parent rest ih =>
    simp only [plainParents,bind,Except.bind,pure,Except.pure,List.map_cons]
    constructor
    · intro success
      cases found : scope.lookupClass store parent with
      | error e => simp [found] at success
      | ok id =>
        cases visited : visit id with
        | error e => simp [found,visited] at success
        | ok order =>
          cases walked : plainParents store scope visit rest with
          | error e => simp [found,visited,walked] at success
          | ok others =>
            obtain ⟨rows,lookups,rfl,orders⟩ := ih.mp walked
            simp only [found,visited,walked,Except.ok.injEq] at success
            refine ⟨(id,order) :: rows,by simp [lookups],by simp [← success],?_⟩
            simpa [visited] using orders
    · rintro ⟨rows,lookups,rfl,orders⟩
      cases rows with
      | nil => simp at lookups
      | cons row rows =>
        obtain ⟨found,lookups⟩ := List.cons_eq_cons.mp lookups
        have walked := ih.mpr ⟨rows,lookups,rfl,fun row member =>
          orders row (List.mem_cons_of_mem _ member)⟩
        simp [found,orders row List.mem_cons_self,walked]

/-- One level of the recursion succeeds exactly if the class is not on the path and an order
follows from what the next level finds for its parents. -/
theorem plainOrder_succ_eq_ok_iff :
    plainOrder store scope (budget + 1) path c = .ok order ↔
      (store.classOf c).qualifiedName ∉ path ∧
      ∃ rows, Inherits store scope c rows order ∧ ∀ row ∈ rows,
        plainOrder store scope budget (path ++ [(store.classOf c).qualifiedName]) row.1 =
          .ok row.2 := by
  simp only [plainOrder]
  by_cases onPath : (store.classOf c).qualifiedName ∈ path
  · simp [onPath]
  · simp only [onPath,not_false_iff,true_and,bind,Except.bind]
    constructor
    · intro success
      cases walked : plainParents store scope
          (plainOrder store scope budget (path ++ [(store.classOf c).qualifiedName]))
          (store.classOf c).parents with
      | error e => simp [walked] at success
      | ok named =>
        simp only [walked] at success
        obtain ⟨rows,found,rfl,orders⟩ := plainParents_eq_ok_iff.mp walked
        obtain ⟨rest,shape,merges⟩ := mergeParents_eq_ok_iff.mp success
        exact ⟨rows,⟨found,rest,shape,by simpa [List.map_map,Function.comp_def] using merges⟩,
          orders⟩
    · rintro ⟨rows,⟨found,rest,shape,merges⟩,orders⟩
      rw [plainParents_eq_ok_iff.mpr ⟨rows,found,rfl,orders⟩]
      exact mergeParents_eq_ok_iff.mpr
        ⟨rest,shape,by simpa [List.map_map,Function.comp_def] using merges⟩

theorem linearizes_of_plainOrder (success : plainOrder store scope budget path c = .ok order) :
    Linearizes store scope c order := by
  induction budget generalizing path c order with
  | zero => simp [plainOrder] at success
  | succ budget ih =>
    obtain ⟨_,rows,inherits,orders⟩ := plainOrder_succ_eq_ok_iff.mp success
    exact .inherit inherits fun row member => ih (orders row member)

end ClassId

/-- The names on the path are distinct names of classes, and the budget covers the classes whose
names are not on it. -/
structure Trail (store : Store β) (budget : Nat) (path : List String) : Prop where
  distinct : path.Nodup
  named : ∀ name ∈ path, ∃ d : ClassId, d.index < store.classes.size ∧
    (store.classOf d).qualifiedName = name
  room : store.classes.size < budget + path.length

namespace Trail

theorem start (store : Store β) : Trail store (store.classes.size + 1) [] :=
  ⟨List.nodup_nil,by simp,by simp⟩

theorem length_le (trail : Trail store budget path) : path.length ≤ store.classes.size := by
  let names := (List.range store.classes.size).map fun i => (store.classOf ⟨i⟩).qualifiedName
  have covered : path ⊆ names := by
    intro name member
    obtain ⟨d,present,rfl⟩ := trail.named name member
    exact List.mem_map.mpr ⟨d.index,List.mem_range.mpr present,rfl⟩
  have shorter := (trail.distinct.subperm covered).length_le
  simpa [names] using shorter

/-- The budget is never used up. -/
theorem budget_pos (trail : Trail store budget path) : ∃ rest, budget = rest + 1 := by
  have short := trail.length_le
  have room := trail.room
  exact ⟨budget - 1,by omega⟩

theorem extend (trail : Trail store (budget + 1) path) (present : c.index < store.classes.size)
    (fresh : (store.classOf c).qualifiedName ∉ path) :
    Trail store budget (path ++ [(store.classOf c).qualifiedName]) where
  distinct := by
    rw [List.nodup_append]
    refine ⟨trail.distinct,by simp,fun name old other new same => ?_⟩
    rw [List.mem_singleton.mp new] at same
    exact fresh (same ▸ old)
  named name member := by
    rcases List.mem_append.mp member with old | new
    · exact trail.named name old
    · exact ⟨c,present,(List.mem_singleton.mp new).symm⟩
  room := by
    have room := trail.room
    simp only [List.length_append,List.length_singleton]
    omega

end Trail

namespace Scope

theorem Houses.registers_ancestor (houses : home.Houses store)
    (registered : home.Registers store c)
    (ancestor : Relation.ReflTransGen (Declares store home) c d) : home.Registers store d := by
  cases ancestor with
  | refl => exact registered
  | tail _ declares =>
    obtain ⟨parent,_,found⟩ := declares
    exact houses.registers_of_lookup (self_mem_chain home store) found

/-- An order is found again from every path that leads to none of the class's ancestors. -/
theorem Houses.plainOrder_of_linearizes (houses : home.Houses store)
    (linearizes : Linearizes store home c order) (registered : home.Registers store c)
    (trail : Trail store budget path)
    (apart : ∀ d, Relation.ReflTransGen (Declares store home) c d →
      (store.classOf d).qualifiedName ∉ path) :
    ClassId.plainOrder store home budget path c = .ok order := by
  have acyclic := linearizes.acyclic
  induction linearizes generalizing budget path with
  | @inherit c rows order inherits parents ih =>
    obtain ⟨rest,rfl⟩ := trail.budget_pos
    refine ClassId.plainOrder_succ_eq_ok_iff.mpr ⟨apart c .refl,rows,inherits,fun row member => ?_⟩
    obtain ⟨parent,declared,found⟩ := inherits.exists_parent member
    have declares : Declares store home c row.1 := ⟨parent,declared,found⟩
    have known := houses.registers_of_lookup (self_mem_chain home store) found
    refine ih row member known (trail.extend (houses.lt_size registered) (apart c .refl)) ?_
      (parents row member).acyclic
    intro d ancestor onPath
    rcases List.mem_append.mp onPath with old | new
    · exact apart d (ancestor.head declares) old
    · have same : d = c := (houses.registers_ancestor known ancestor).unique registered
        (List.mem_singleton.mp new)
      subst same
      exact acyclic (.head' declares ancestor)

end Scope

def Sound (home : Scope) (store : Store β) (memo : Memo) : Prop :=
  ∀ c order, memo.get? c = some order → Linearizes store home c order

theorem Records.sound {met : ClassId → Prop} {memo after : Memo} (sound : Sound home store memo)
    (step : Records store home met memo after) : Sound home store after := by
  obtain ⟨reached,fresh,inherits,known⟩ := step
  intro d order recorded
  rcases Memo.get?_record_cases fresh recorded with ⟨rfl,rfl⟩ | old
  · exact .inherit inherits fun row member => sound row.1 row.2 (known row member)
  · exact sound d order old

theorem records_sound {met : ClassId → Prop} {memo after : Memo} (sound : Sound home store memo)
    (steps : Relation.ReflTransGen (Records store home met) memo after) :
    Sound home store after := by
  induction steps with
  | refl => exact sound
  | tail _ step ih => exact step.sound ih

namespace ClassId

theorem parentOrders_eq_plainParents {memo : Memo} (invariant : Memo → Prop)
    (visit : ClassId → Action Memo (List String)) (plain : ClassId → Except Error (List String))
    (parents : List String)
    (kept : ∀ parent ∈ parents, ∀ d memo, scope.lookupClass store parent = .ok d →
      invariant memo → invariant ((visit d).run memo).2)
    (agree : ∀ parent ∈ parents, ∀ d memo, scope.lookupClass store parent = .ok d →
      invariant memo → ((visit d).run memo).1 = plain d)
    (holds : invariant memo) :
    ((parentOrders store scope visit parents).run memo).1 =
      plainParents store scope plain parents := by
  induction parents generalizing memo with
  | nil => rfl
  | cons parent rest ih =>
    rw [parentOrders_cons]
    simp only [plainParents,bind,Except.bind,pure,Except.pure]
    cases found : scope.lookupClass store parent with
    | error e => rfl
    | ok id =>
      have same := agree parent List.mem_cons_self id memo found holds
      have next := kept parent List.mem_cons_self id memo found holds
      simp only
      rcases visited : (visit id).run memo with ⟨_ | order,later⟩ <;>
        rw [visited] at same next <;> simp only [← same]
      have others := ih (fun parent member => kept parent (List.mem_cons_of_mem _ member))
        (fun parent member => agree parent (List.mem_cons_of_mem _ member)) next
      rw [← others]
      rcases (parentOrders store scope visit rest).run later with ⟨_ | named,last⟩ <;> rfl

end ClassId

/-- Every name on the path is that of a class that inherits from the given one. -/
def Leads (home : Scope) (store : Store β) (path : List String) (c : ClassId) : Prop :=
  ∀ name ∈ path, ∃ d, home.Registers store d ∧ (store.classOf d).qualifiedName = name ∧
    Relation.TransGen (Declares store home) d c

theorem Leads.extend (leads : Leads home store path c) (registered : home.Registers store c)
    (declares : Declares store home c d) :
    Leads home store (path ++ [(store.classOf c).qualifiedName]) d := by
  intro name member
  rcases List.mem_append.mp member with old | new
  · obtain ⟨e,known,named,down⟩ := leads name old
    exact ⟨e,known,named,down.tail declares⟩
  · exact ⟨c,registered,(List.mem_singleton.mp new).symm,.single declares⟩

/-- Where the path leads to a class that has an order, it has no ancestor's name on it: such an
ancestor would inherit from itself. So an entry of the memo never hides a cycle. -/
theorem Scope.Houses.ancestor_not_mem (houses : home.Houses store)
    (linearizes : Linearizes store home c order) (registered : home.Registers store c)
    (leads : Leads home store path c) (ancestor : Relation.ReflTransGen (Declares store home) c d) :
    (store.classOf d).qualifiedName ∉ path := by
  intro onPath
  obtain ⟨e,known,named,down⟩ := leads _ onPath
  obtain rfl := known.unique (houses.registers_ancestor registered ancestor) named
  obtain ⟨_,again⟩ := linearizes.ancestor ancestor
  exact again.acyclic (down.trans_left ancestor)

theorem Scope.Houses.computeOrder_sound (houses : home.Houses store) {memo : Memo}
    (sound : Sound home store memo) (registered : home.Registers store c) :
    Sound home store ((ClassId.computeOrder store home budget path c).run memo).2 := by
  refine records_sound sound (ClassId.computeOrder_records (fun _ _ found => ?_) _ _ c registered).1
  exact houses.registers_of_lookup (self_mem_chain home store) found

/-- The memo makes no difference to the answer, be it a list or an error. -/
theorem Scope.Houses.computeOrder_eq_plainOrder (houses : home.Houses store) {memo : Memo}
    (sound : Sound home store memo) (registered : home.Registers store c)
    (trail : Trail store budget path) (leads : Leads home store path c) :
    ((ClassId.computeOrder store home budget path c).run memo).1 =
      ClassId.plainOrder store home budget path c := by
  induction budget generalizing path c memo with
  | zero => rfl
  | succ budget ih =>
    rw [ClassId.computeOrder_succ]
    cases recorded : memo.get? c with
    | some order =>
      -- The memo skips the check for cycles, but none could be found from here.
      have linearizes := sound c order recorded
      exact (houses.plainOrder_of_linearizes linearizes registered trail fun _ ancestor =>
        houses.ancestor_not_mem linearizes registered leads ancestor).symm
    | none =>
      simp only [ClassId.plainOrder]
      split
      · rfl
      · rename_i offPath
        have longer := trail.extend (houses.lt_size registered) offPath
        have walked : ((ClassId.parentOrders store home
            (ClassId.computeOrder store home budget (path ++ [(store.classOf c).qualifiedName]))
            (store.classOf c).parents).run memo).1 = ClassId.plainParents store home
            (ClassId.plainOrder store home budget (path ++ [(store.classOf c).qualifiedName]))
            (store.classOf c).parents := by
          refine ClassId.parentOrders_eq_plainParents (Sound home store) _ _ _ ?_ ?_ sound
          · intro parent declared d memo found sound
            exact houses.computeOrder_sound sound
              (houses.registers_of_lookup (self_mem_chain home store) found)
          · intro parent declared d memo found sound
            exact ih sound (houses.registers_of_lookup (self_mem_chain home store) found) longer
              (leads.extend registered ⟨parent,declared,found⟩)
        rw [← walked]
        rcases (ClassId.parentOrders store home
            (ClassId.computeOrder store home budget (path ++ [(store.classOf c).qualifiedName]))
            (store.classOf c).parents).run memo with ⟨_ | named,later⟩
        · rfl
        · simp only [bind,Except.bind]
          cases ClassId.mergeParents (store.classOf c).qualifiedName named <;> rfl

theorem ClassId.plainOrder_withMemo (memo : Memo) (budget : Nat) (path : List String)
    (c : ClassId) :
    plainOrder { store with memo } scope budget path c = plainOrder store scope budget path c := by
  induction budget generalizing path c with
  | zero => rfl
  | succ budget ih =>
    have walk : ∀ visit parents, plainParents { store with memo } scope visit parents =
        plainParents store scope visit parents := by
      intro visit parents
      induction parents with
      | nil => rfl
      | cons parent rest ih =>
        simp only [plainParents,ih]
        rfl
    have visits : ∀ path, plainOrder { store with memo } scope budget path =
        plainOrder store scope budget path := fun path => funext (ih path)
    simp only [plainOrder,walk,visits]
    rfl

theorem Linearizes.evolves (linearizes : Linearizes store home c order)
    (houses : home.Houses store) (registered : home.Registers store c)
    (houses' : home.Houses later) (evolves : Evolves home store later)
    (same : ∀ c : ClassId, c.index < store.classes.size → later.classOf c = store.classOf c) :
    Linearizes later home c order := by
  induction linearizes with
  | @inherit c rows order inherits parents ih =>
    have found : ∀ row ∈ rows, home.Registers store row.1 := by
      intro row member
      obtain ⟨parent,_,found⟩ := inherits.exists_parent member
      exact houses.registers_of_lookup (Scope.self_mem_chain home store) found
    refine .inherit ⟨?_,?_⟩ fun row member => ih row member (found row member)
    · rw [same c (houses.lt_size registered),← inherits.found]
      refine List.map_congr_left fun parent declared => ?_
      obtain ⟨row,_,lookup⟩ := inherits.exists_row declared
      rw [lookup,houses'.lookupClass_eq_ok_iff]
      exact evolves.table parent row.1 (houses.lookupClass_eq_ok_iff.mp lookup)
    · obtain ⟨rest,shape,merges⟩ := inherits.merged
      refine ⟨rest,by rw [same c (houses.lt_size registered)]; exact shape,?_⟩
      have names : (rows.map fun row => (later.classOf row.1).qualifiedName) =
          rows.map fun row => (store.classOf row.1).qualifiedName :=
        List.map_congr_left fun row member => by
          rw [same row.1 (houses.lt_size (found row member))]
      rw [names]
      exact merges

structure Faithful (home : Scope) (store : Store β) : Prop where
  registers : ∀ c order, store.memo.get? c = some order → home.Registers store c
  sound : Sound home store store.memo

theorem Change.faithful {definable : Class β → Prop} {reparenting : Prop} (fixed : ¬reparenting)
    (houses : home.Houses store) (change : Change home definable reparenting store later)
    (faithful : Faithful home store) : Faithful home later := by
  have evolves := change.evolves houses
  have entries : ∀ c order, later.memo.get? c = some order →
      home.Registers store c ∧ Linearizes store home c order := by
    cases change with
    | enter | define | reparent | create =>
      exact fun c order known => ⟨faithful.registers c order known,faithful.sound c order known⟩
    | record inside step =>
      obtain ⟨reached,fresh,inherits,known⟩ := step
      rename_i d rows entry
      have step : Records store home (home.Registers store) store.memo
          (store.memo.record d entry) :=
        .entry reached fresh (houses.inherits inside inherits) known
      intro c order found
      refine ⟨?_,step.sound faithful.sound c order found⟩
      rcases Memo.get?_record_cases fresh found with ⟨rfl,_⟩ | old
      · exact reached
      · exact faithful.registers c order old
  refine ⟨fun c order known => evolves.registers houses (entries c order known).1,
    fun c order known => ?_⟩
  obtain ⟨registered,linearizes⟩ := entries c order known
  exact linearizes.evolves houses registered (houses.change change) evolves
    fun c present => change.classOf_eq fixed present

theorem Faithful.of_empty (empty : store.memo = []) : Faithful home store := by
  have unrecorded : ∀ c, store.memo.get? c = none := by simp [empty,Memo.get?]
  constructor <;> intro c order known
  all_goals simp [unrecorded c] at known

theorem Faithful.linearization (faithful : Faithful home store) (houses : home.Houses store)
    (inside : home ∈ store.chain scope) (registered : home.Registers store c) :
    ((c.linearization scope).run store).1 =
      ClassId.plainOrder store home (store.classes.size + 1) [] c := by
  rw [houses.linearization inside]
  exact houses.computeOrder_eq_plainOrder faithful.sound registered (.start store)
    fun _ member => nomatch member

theorem Scope.Houses.linearization_emptied (houses : home.Houses store)
    (inside : home ∈ store.chain scope) (registered : home.Registers store c) :
    ((c.linearization scope).run { store with memo := [] }).1 =
      ClassId.plainOrder store home (store.classes.size + 1) [] c := by
  have emptied : home.Houses { store with memo := [] } := houses.congr rfl rfl
  rw [Faithful.linearization (.of_empty rfl) emptied inside registered]
  exact ClassId.plainOrder_withMemo ..

/-- Whatever was asked before, and however classes were defined in between, each answer is the C3
order by the inductive definition, if there is one. Lists and errors alike are those of a store
whose memo is empty, and those of the recursion that has no memo at all. -/
theorem linearization_memo_transparent {host : Host β σ} {start w : World β σ}
    (blank : start.store.Blank) (present : home.index < start.store.frames.size)
    (reached : World.Reaches host (home.Admits (fun _ => True) False) start w)
    (inside : home ∈ w.store.chain scope) (registered : home.Registers w.store c) :
    (∀ order, ((c.linearization scope).run w.store).1 = .ok order ↔
      Linearizes w.store home c order) ∧
    ((c.linearization scope).run w.store).1 =
      ((c.linearization scope).run { w.store with memo := [] }).1 ∧
    ((c.linearization scope).run w.store).1 =
      ClassId.plainOrder w.store home (w.store.classes.size + 1) [] c := by
  obtain ⟨houses,faithful⟩ := (blank.houses present).reaches
    (fun _ _ houses change faithful => change.faithful not_false houses faithful)
    (.of_empty blank.unrecorded) reached
  have plain := faithful.linearization houses inside registered
  refine ⟨fun order => ?_,plain.trans (houses.linearization_emptied inside registered).symm,plain⟩
  rw [plain]
  constructor
  · exact ClassId.linearizes_of_plainOrder
  · intro linearizes
    exact houses.plainOrder_of_linearizes linearizes registered (.start w.store) (by simp)

theorem linearization_memo_transparent_diamond :
    ClassId.recorded? ⟨3⟩ Diamond.world.store ≠ none ∧
    Linearizes Diamond.world.store Diamond.global ⟨3⟩ ["m.D","m.B","m.C","m.A"] ∧
    ClassId.plainOrder Diamond.world.store Diamond.global 5 [] ⟨3⟩ =
      .ok ["m.D","m.B","m.C","m.A"] := by
  have answers := linearization_memo_transparent (.create defaultCallDepth false) (by decide)
    (Diamond.reached False ⟨trivial,trivial,trivial,trivial⟩)
    (show Diamond.global ∈ Diamond.world.store.chain Diamond.inner by decide)
    (show Diamond.global.Registers Diamond.world.store ⟨3⟩ from rfl)
  exact ⟨by decide,(answers.1 _).mp rfl,answers.2.2.symm⟩

end ObjectModel
