import Mathlib.Logic.Relation
import ObjectModel.Hierarchy
import ObjectModel.Proofs.Merge

/-! What the computation of an order does to the memo. However deep it goes and whether it
succeeds or not, it only adds entries one at a time, each the merge of entries already there, and
the class it succeeds for has the entry it returns. What holds of every memo that grows in this
way needs no further induction over the computation. -/
namespace ObjectModel

variable {β : Type} {store : Store β} {scope : Scope} {memo : Memo}

/-- An order of a class follows from its parents. The rows hold the declared parents, as the
scope finds them, and an order for each. -/
structure Inherits (store : Store β) (scope : Scope) (c : ClassId)
    (rows : List (ClassId × List String)) (order : List String) : Prop where
  found : (store.classOf c).parents.map (scope.lookupClass store) = rows.map (.ok ·.1)
  merged : ∃ rest, order = (store.classOf c).qualifiedName :: rest ∧
    Linearization.Merges
      (rows.map (·.2) ++ [rows.map fun row => (store.classOf row.1).qualifiedName]) rest

inductive Records (store : Store β) (scope : Scope) (met : ClassId → Prop) (memo : Memo) :
    Memo → Prop where
  | entry {c : ClassId} {rows : List (ClassId × List String)} {order : List String}
      (reached : met c) (fresh : memo.get? c = none) (inherits : Inherits store scope c rows order)
      (known : ∀ row ∈ rows, memo.get? row.1 = some row.2) :
      Records store scope met memo (memo.record c order)

theorem Inherits.exists_parent {c : ClassId} {rows : List (ClassId × List String)}
    {order : List String} (inherits : Inherits store scope c rows order)
    {row : ClassId × List String} (member : row ∈ rows) :
    ∃ parent ∈ (store.classOf c).parents, scope.lookupClass store parent = .ok row.1 := by
  have mapped : (.ok row.1 : Except Error ClassId) ∈ rows.map (.ok ·.1) :=
    List.mem_map.mpr ⟨row,member,rfl⟩
  rw [← inherits.found] at mapped
  exact List.mem_map.mp mapped

theorem Inherits.exists_row {c : ClassId} {rows : List (ClassId × List String)}
    {order : List String} (inherits : Inherits store scope c rows order)
    {parent : String} (member : parent ∈ (store.classOf c).parents) :
    ∃ row ∈ rows, scope.lookupClass store parent = .ok row.1 := by
  have mapped : scope.lookupClass store parent ∈
      (store.classOf c).parents.map (scope.lookupClass store) := List.mem_map_of_mem member
  rw [inherits.found] at mapped
  obtain ⟨row,present,same⟩ := List.mem_map.mp mapped
  exact ⟨row,present,same.symm⟩

def Declares (store : Store β) (scope : Scope) (c d : ClassId) : Prop :=
  ∃ parent ∈ (store.classOf c).parents, scope.lookupClass store parent = .ok d

theorem Inherits.exists_row_of_declares {c d : ClassId} {rows : List (ClassId × List String)}
    {order : List String} (inherits : Inherits store scope c rows order)
    (declares : Declares store scope c d) :
    ∃ order, (d,order) ∈ rows := by
  obtain ⟨parent,member,found⟩ := declares
  obtain ⟨⟨e,order⟩,present,again⟩ := inherits.exists_row member
  obtain rfl := Except.ok.inj (found.symm.trans again)
  exact ⟨order,present⟩

/-- What follows from the parents does not depend on the memo that the store holds. -/
theorem Inherits.withMemo {c : ClassId} {rows : List (ClassId × List String)}
    {order : List String} (inherits : Inherits store scope c rows order) (memo : Memo) :
    Inherits { store with memo } scope c rows order :=
  ⟨inherits.found,inherits.merged⟩

namespace Memo

def Extends (memo later : Memo) : Prop :=
  ∀ c order, memo.get? c = some order → later.get? c = some order

end Memo

theorem Records.extends {met : ClassId → Prop} {later : Memo}
    (step : Records store scope met memo later) : memo.Extends later := by
  obtain ⟨_,_,_,_⟩ := step
  intro d old known
  exact Memo.get?_record_of_some known _ _

theorem records_extends {met : ClassId → Prop} {later : Memo}
    (steps : Relation.ReflTransGen (Records store scope met) memo later) : memo.Extends later := by
  induction steps with
  | refl => exact fun _ _ known => known
  | tail _ step ih => exact fun c order known => step.extends c order (ih c order known)

namespace ClassId

theorem parentOrders_cons (visit : ClassId → Action Memo (List String)) (parent : String)
    (rest : List String) :
    (parentOrders store scope visit (parent :: rest)).run memo =
      match scope.lookupClass store parent with
      | .error e => (.error e,memo)
      | .ok id =>
        match (visit id).run memo with
        | (.error e,later) => (.error e,later)
        | (.ok order,later) =>
          match (parentOrders store scope visit rest).run later with
          | (.error e,last) => (.error e,last)
          | (.ok others,last) =>
            (.ok (((store.classOf id).qualifiedName,order) :: others),last) := by
  simp only [parentOrders,Action.run_bind,Action.run_ofExcept,Action.run_pure]
  cases scope.lookupClass store parent with
  | error e => rfl
  | ok id =>
    simp only
    rcases (visit id).run memo with ⟨_ | order,later⟩
    · rfl
    · simp only
      rcases (parentOrders store scope visit rest).run later with ⟨_ | others,last⟩ <;> rfl

theorem mergeParents_eq_ok_iff {name : String} {parents : List (String × List String)}
    {order : List String} :
    mergeParents name parents = .ok order ↔ ∃ rest, order = name :: rest ∧
      Linearization.Merges (parents.map (·.2) ++ [parents.map (·.1)]) rest := by
  simp only [mergeParents,← Linearization.merge_eq_ok_iff]
  cases Linearization.merge (parents.map (·.2) ++ [parents.map (·.1)]) with
  | error stuck => simp
  | ok merged => simp [eq_comm]

/-- One level of the computation. A class without parents needs no case of its own: nothing is
visited, and the merge of the empty list leaves the class alone. -/
theorem computeOrder_succ (budget : Nat) (path : List String) (c : ClassId) :
    (computeOrder store scope (budget + 1) path c).run memo =
      match memo.get? c with
      | some order => (.ok order,memo)
      | none =>
        if (store.classOf c).qualifiedName ∈ path then
          (.error (.inconsistentHierarchy (store.classOf c).qualifiedName (.cycle path)),memo)
        else
          match (parentOrders store scope
              (computeOrder store scope budget (path ++ [(store.classOf c).qualifiedName]))
              (store.classOf c).parents).run memo with
          | (.error e,later) => (.error e,later)
          | (.ok rows,later) =>
            match mergeParents (store.classOf c).qualifiedName rows with
            | .error e => (.error e,later)
            | .ok order => (.ok order,later.record c order) := by
  rw [computeOrder]
  simp only [Action.run_bind,Action.run_get]
  cases memo.get? c with
  | some order => rfl
  | none =>
    simp only [List.contains_iff_mem,List.isEmpty_iff]
    by_cases onPath : (store.classOf c).qualifiedName ∈ path
    · simp only [if_pos onPath,Action.run_fail]
    · by_cases childless : (store.classOf c).parents = []
      · simp only [if_neg onPath,if_pos childless]
        rw [childless]
        rfl
      · simp only [if_neg onPath,if_neg childless,Action.run_bind,Action.run_ofExcept,
          Action.run_modify,Action.run_pure]
        rcases (parentOrders store scope
            (computeOrder store scope budget (path ++ [(store.classOf c).qualifiedName]))
            (store.classOf c).parents).run memo with ⟨_ | rows,later⟩
        · rfl
        · simp only
          cases mergeParents (store.classOf c).qualifiedName rows <;> rfl

/-- Where the same names find classes of the same names and parents, the same is computed. -/
theorem computeOrder_congr {later : Store β} {other : Scope}
    (same : ∀ name, scope.lookupClass store name = other.lookupClass later name)
    (classes : ∀ c, (later.classOf c).qualifiedName = (store.classOf c).qualifiedName ∧
      (later.classOf c).parents = (store.classOf c).parents) (budget : Nat) :
    computeOrder store scope budget = computeOrder later other budget := by
  induction budget with
  | zero =>
    funext path c
    simp only [computeOrder,classes]
  | succ budget ih =>
    have walk : ∀ visit parents,
        parentOrders store scope visit parents = parentOrders later other visit parents := by
      intro visit parents
      induction parents with
      | nil => rfl
      | cons parent rest ih => simp only [parentOrders,same,classes,ih]
    funext path c
    simp only [computeOrder,classes,ih,walk]

theorem parentOrders_invariant (invariant : Memo → Prop)
    (visit : ClassId → Action Memo (List String))
    (keeps : ∀ d memo, invariant memo → invariant ((visit d).run memo).2) (parents : List String)
    (holds : invariant memo) : invariant ((parentOrders store scope visit parents).run memo).2 := by
  induction parents generalizing memo with
  | nil => exact holds
  | cons parent rest ih =>
    rw [parentOrders_cons]
    cases scope.lookupClass store parent with
    | error e => exact holds
    | ok id =>
      have kept := keeps id memo holds
      simp only
      rcases visited : (visit id).run memo with ⟨_ | order,later⟩ <;> rw [visited] at kept
      · exact kept
      · have last := ih kept
        simp only
        rcases walked : (parentOrders store scope visit rest).run later with ⟨_ | others,final⟩
        all_goals
          rw [walked] at last
          exact last

/-- A class whose name is on the path is not recorded: it is being computed further out, and a
visit ends before it could be. -/
theorem computeOrder_spares {c : ClassId} (budget : Nat) (path : List String) (d : ClassId)
    (onPath : (store.classOf c).qualifiedName ∈ path) (fresh : memo.get? c = none) :
    ((computeOrder store scope budget path d).run memo).2.get? c = none := by
  induction budget generalizing path d memo with
  | zero => exact fresh
  | succ budget ih =>
    rw [computeOrder_succ]
    cases known : memo.get? d with
    | some order => exact fresh
    | none =>
      simp only
      split
      · exact fresh
      · rename_i offPath
        have apart : d ≠ c := by
          rintro rfl
          exact offPath onPath
        have kept : ((parentOrders store scope
            (computeOrder store scope budget (path ++ [(store.classOf d).qualifiedName]))
            (store.classOf d).parents).run memo).2.get? c = none :=
          parentOrders_invariant (fun memo => memo.get? c = none) _
            (fun e memo fresh => ih _ e (List.mem_append_left _ onPath) fresh) _ fresh
        rcases walked : (parentOrders store scope
            (computeOrder store scope budget (path ++ [(store.classOf d).qualifiedName]))
            (store.classOf d).parents).run memo with ⟨_ | rows,later⟩ <;> rw [walked] at kept
        · exact kept
        · simp only
          cases mergeParents (store.classOf d).qualifiedName rows with
          | error e => exact kept
          | ok order => exact (Memo.get?_record_of_ne apart later order).trans kept

variable {met : ClassId → Prop}

/-- The walk over the parents grows the memo as its visits do, and finds each parent's order
in the memo it leaves. -/
theorem parentOrders_records (visit : ClassId → Action Memo (List String))
    (closed : ∀ name d, scope.lookupClass store name = .ok d → met d)
    (grows : ∀ d memo, met d →
      Relation.ReflTransGen (Records store scope met) memo ((visit d).run memo).2)
    (known : ∀ d memo order, met d → ((visit d).run memo).1 = .ok order →
      ((visit d).run memo).2.get? d = some order) (parents : List String) :
    Relation.ReflTransGen (Records store scope met) memo
        ((parentOrders store scope visit parents).run memo).2 ∧
      ∀ named, ((parentOrders store scope visit parents).run memo).1 = .ok named →
        ∃ rows : List (ClassId × List String),
          parents.map (scope.lookupClass store) = rows.map (.ok ·.1) ∧
          named = rows.map (fun row => ((store.classOf row.1).qualifiedName,row.2)) ∧
          ∀ row ∈ rows,
            ((parentOrders store scope visit parents).run memo).2.get? row.1 = some row.2 := by
  induction parents generalizing memo with
  | nil =>
    refine ⟨.refl,fun named success => ⟨[],rfl,?_,by simp⟩⟩
    exact (Except.ok.inj success).symm
  | cons parent rest ih =>
    rw [parentOrders_cons]
    cases found : scope.lookupClass store parent with
    | error e => exact ⟨.refl,by simp⟩
    | ok id =>
      have grown := grows id memo (closed parent id found)
      have entered := known id memo
      simp only
      rcases visited : (visit id).run memo with ⟨_ | order,later⟩ <;> rw [visited] at grown entered
      · exact ⟨grown,by simp⟩
      · have present := entered order (closed parent id found) rfl
        obtain ⟨further,others⟩ := @ih later
        simp only
        rcases walked : (parentOrders store scope visit rest).run later with ⟨_ | named,last⟩ <;>
          rw [walked] at further others
        · exact ⟨grown.trans further,by simp⟩
        · refine ⟨grown.trans further,fun all success => ?_⟩
          obtain ⟨rows,lookups,names,orders⟩ := others named rfl
          refine ⟨(id,order) :: rows,by simp [found,lookups],?_,?_⟩
          · simpa [names] using (Except.ok.inj success).symm
          · intro row member
            rcases List.mem_cons.mp member with rfl | member
            · exact records_extends further id order present
            · exact orders row member

/-- The computation of an order is a series of entries, and a success is the entry of its class. -/
theorem computeOrder_records (closed : ∀ name d, scope.lookupClass store name = .ok d → met d)
    (budget : Nat) (path : List String) (c : ClassId) (reached : met c) :
    Relation.ReflTransGen (Records store scope met) memo
        ((computeOrder store scope budget path c).run memo).2 ∧
      ∀ order, ((computeOrder store scope budget path c).run memo).1 = .ok order →
        ((computeOrder store scope budget path c).run memo).2.get? c = some order := by
  induction budget generalizing path c memo with
  | zero => exact ⟨.refl,fun _ success => nomatch success⟩
  | succ budget ih =>
    rw [computeOrder_succ]
    cases recorded : memo.get? c with
    | some order =>
      refine ⟨.refl,fun other success => ?_⟩
      rw [← Except.ok.inj success]
      exact recorded
    | none =>
      simp only
      split
      · exact ⟨.refl,fun _ success => nomatch success⟩
      · have walk := @parentOrders_records β store scope memo met
          (computeOrder store scope budget (path ++ [(store.classOf c).qualifiedName])) closed
          (fun d memo met => (ih _ d met).1) (fun d memo order met => (ih _ d met).2 order)
          (store.classOf c).parents
        have spared : ((parentOrders store scope
            (computeOrder store scope budget (path ++ [(store.classOf c).qualifiedName]))
            (store.classOf c).parents).run memo).2.get? c = none :=
          parentOrders_invariant (fun memo => memo.get? c = none) _
            (fun d memo fresh => computeOrder_spares budget _ d (by simp) fresh) _ recorded
        rcases walked : (parentOrders store scope
            (computeOrder store scope budget (path ++ [(store.classOf c).qualifiedName]))
            (store.classOf c).parents).run memo with ⟨_ | named,later⟩ <;>
          rw [walked] at walk spared
        · exact ⟨walk.1,fun _ success => nomatch success⟩
        · simp only
          cases merged : mergeParents (store.classOf c).qualifiedName named with
          | error e => exact ⟨walk.1,fun _ success => nomatch success⟩
          | ok order =>
            obtain ⟨rows,found,rfl,known⟩ := walk.2 named rfl
            obtain ⟨rest,shape,merges⟩ := mergeParents_eq_ok_iff.mp merged
            have inherits : Inherits store scope c rows order :=
              ⟨found,rest,shape,by simpa [List.map_map,Function.comp_def] using merges⟩
            refine ⟨walk.1.tail (.entry reached spared inherits known),fun other success => ?_⟩
            rw [← Except.ok.inj success]
            exact Memo.get?_record_self spared order

/-- The same for a whole linearization, which begins with the memo of the store. -/
theorem linearization_records (closed : ∀ name d, scope.lookupClass store name = .ok d → met d)
    (c : ClassId) (reached : met c) :
    Relation.ReflTransGen (Records store scope met) store.memo
        ((c.linearization scope).run store).2.memo ∧
      ∀ order, ((c.linearization scope).run store).1 = .ok order →
        ((c.linearization scope).run store).2.memo.get? c = some order := by
  have records := @computeOrder_records β store scope store.memo met closed
    (store.classes.size + 1) [] c reached
  exact records

theorem run_linearization (c : ClassId) (scope : Scope) (store : Store β) :
    (c.linearization scope).run store =
      (((computeOrder store scope (store.classes.size + 1) [] c).run store.memo).1,
        { store with
          memo := ((computeOrder store scope (store.classes.size + 1) [] c).run store.memo).2 }) :=
  rfl

theorem linearization_of_recorded {c : ClassId} {order : List String}
    (known : c.recorded? store = some order) (scope : Scope) :
    (c.linearization scope).run store = (.ok order,store) := by
  have entry : store.memo.get? c = some order := known
  rw [run_linearization,computeOrder_succ,entry]

theorem linearization_spares {c : ClassId} {e : Error}
    (failed : ((c.linearization scope).run store).1 = .error e) :
    ((c.linearization scope).run store).2.memo.get? c = none := by
  rw [run_linearization,computeOrder_succ] at failed ⊢
  cases known : store.memo.get? c with
  | some order =>
    rw [known] at failed
    contradiction
  | none =>
    rw [known] at failed
    have spared : ((parentOrders store scope
        (computeOrder store scope store.classes.size [(store.classOf c).qualifiedName])
        (store.classOf c).parents).run store.memo).2.get? c = none :=
      parentOrders_invariant (fun memo => memo.get? c = none) _
        (fun d memo fresh => computeOrder_spares _ _ d (by simp) fresh) _ known
    simp only [List.not_mem_nil,if_false,List.nil_append] at failed ⊢
    rcases walked : (parentOrders store scope
        (computeOrder store scope store.classes.size [(store.classOf c).qualifiedName])
        (store.classOf c).parents).run store.memo with ⟨_ | rows,later⟩ <;>
      rw [walked] at failed spared
    · exact spared
    · simp only at failed ⊢
      cases merged : mergeParents (store.classOf c).qualifiedName rows with
      | error e => exact spared
      | ok order =>
        rw [merged] at failed
        contradiction

theorem parentOrders_of_recorded {visit : ClassId → Action Memo (List String)}
    {parents : List String} {rows : List (ClassId × List String)}
    (found : parents.map (scope.lookupClass store) = rows.map (.ok ·.1))
    (known : ∀ row ∈ rows, (visit row.1).run memo = (.ok row.2,memo)) :
    (parentOrders store scope visit parents).run memo =
      (.ok (rows.map fun row => ((store.classOf row.1).qualifiedName,row.2)),memo) := by
  induction parents generalizing rows with
  | nil =>
    obtain rfl := List.map_eq_nil_iff.mp found.symm
    rfl
  | cons parent rest ih =>
    cases rows with
    | nil => simp at found
    | cons row rows =>
      obtain ⟨first,others⟩ := List.cons_eq_cons.mp found
      have visited := known row List.mem_cons_self
      have walked := ih others fun other member => known other (List.mem_cons_of_mem _ member)
      rw [parentOrders_cons,first]
      simp only [visited,walked,List.map_cons]

theorem lt_size_of_parent {c : ClassId} {parent : String}
    (declared : parent ∈ (store.classOf c).parents) : c.index < store.classes.size := by
  by_contra absent
  have orphan : (store.classOf c).parents = [] :=
    congrArg Class.parents (Arena.get_of_size_le (Nat.le_of_not_lt absent))
  rw [orphan] at declared
  contradiction

/-- A class whose parents are recorded computes its order from theirs, and records nothing else. -/
theorem linearization_of_inherits {c : ClassId} {rows : List (ClassId × List String)}
    {order : List String} (fresh : store.memo.get? c = none)
    (inherits : Inherits store scope c rows order)
    (known : ∀ row ∈ rows, store.memo.get? row.1 = some row.2) :
    (c.linearization scope).run store =
      (.ok order,{ store with memo := store.memo.record c order }) := by
  have visited : ∀ row ∈ rows,
      (computeOrder store scope store.classes.size [(store.classOf c).qualifiedName] row.1).run
        store.memo = (.ok row.2,store.memo) := by
    intro row member
    obtain ⟨parent,declared,_⟩ := inherits.exists_parent member
    obtain ⟨budget,enough⟩ := Nat.exists_eq_succ_of_ne_zero
      (Nat.ne_zero_of_lt (lt_size_of_parent declared))
    rw [enough,computeOrder_succ,known row member]
  have walked := parentOrders_of_recorded inherits.found visited
  have merged : mergeParents (store.classOf c).qualifiedName
      (rows.map fun row => ((store.classOf row.1).qualifiedName,row.2)) = .ok order := by
    rw [mergeParents_eq_ok_iff]
    simpa [List.map_map,Function.comp_def] using inherits.merged
  rw [run_linearization,computeOrder_succ,fresh]
  simp only [List.not_mem_nil,if_false,List.nil_append,walked,merged]

end ClassId
end ObjectModel
