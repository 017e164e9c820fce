import Mathlib.Data.List.Nodup
import Mathlib.Logic.Function.Iterate
import ObjectModel.Proofs.PlainOrder

/-! The computation of an order step by step, on a stack of its own and without a budget. It comes
to an end for every class of every store, whatever is recorded already, and with what the bounded
recursion gives. On the way the names on the stack are distinct, and they are those of the class
asked for and of ancestors that the scope sees. With nothing recorded, a cycle among the ancestors
comes out as an error. -/
namespace ObjectModel

variable {β : Type} {store : Store β} {scope : Scope}

/-- A class whose order is being computed: the parents that it has still to ask, and the orders that
the others gave, under their qualified names. -/
structure Visit where
  owner : ClassId
  pending : List String
  rows : List (String × List String)

/-- Where a computation stands. Visits under way are listed innermost first. -/
inductive Ascent where
  | ask (c : ClassId) (callers : List Visit) (memo : Memo)
  | walk (visit : Visit) (callers : List Visit) (memo : Memo)
  | answer (c : ClassId) (order : List String) (callers : List Visit) (memo : Memo)
  | ended (result : Except Error (List String)) (left : List Visit) (memo : Memo)

namespace Ascent

def visits : Ascent → List Visit
  | .ask _ callers _ | .answer _ _ callers _ => callers
  | .walk visit callers _ => visit :: callers
  | .ended _ left _ => left

def path (store : Store β) (visits : List Visit) : List String :=
  (visits.map fun visit => (store.classOf visit.owner).qualifiedName).reverse

def parent? : Ascent → Option String
  | .walk visit _ _ => visit.pending.head?
  | _ => none

/-- One step. A class goes on the stack if it has parents, and comes off once they have all
answered. -/
def advance (store : Store β) (scope : Scope) : Ascent → Ascent
  | .ask c callers memo =>
    match memo.get? c with
    | some order => .answer c order callers memo
    | none =>
      let it := store.classOf c
      let name := it.qualifiedName
      if name ∈ path store callers then
        .ended (.error (.inconsistentHierarchy name (.cycle (path store callers)))) callers memo
      else if it.parents.isEmpty then .answer c [name] callers (memo.record c [name])
      else .walk ⟨c,it.parents,[]⟩ callers memo
  | .walk ⟨c,parent :: rest,rows⟩ callers memo =>
    match scope.lookupClass store parent with
    | .error e => .ended (.error e) (⟨c,parent :: rest,rows⟩ :: callers) memo
    | .ok d => .ask d (⟨c,rest,rows⟩ :: callers) memo
  | .walk ⟨c,[],rows⟩ callers memo =>
    match ClassId.mergeParents (store.classOf c).qualifiedName rows with
    | .error e => .ended (.error e) callers memo
    | .ok order => .answer c order callers (memo.record c order)
  | .answer d order (⟨c,pending,rows⟩ :: callers) memo =>
    .walk ⟨c,pending,rows ++ [((store.classOf d).qualifiedName,order)]⟩ callers memo
  | .answer _ order [] memo => .ended (.ok order) [] memo
  | .ended result left memo => .ended result left memo

@[simp] theorem path_cons (visit : Visit) (callers : List Visit) :
    path store (visit :: callers) =
      path store callers ++ [(store.classOf visit.owner).qualifiedName] := by
  simp [path]

def Arrives (store : Store β) (scope : Scope) (start last : Ascent) : Prop :=
  ∃ count, (advance store scope)^[count] start = last

theorem Arrives.refl (start : Ascent) : Arrives store scope start start := ⟨0,rfl⟩

theorem Arrives.step {start last : Ascent}
    (rest : Arrives store scope (start.advance store scope) last) :
    Arrives store scope start last := by
  obtain ⟨count,rfl⟩ := rest
  exact ⟨count + 1,Function.iterate_succ_apply _ _ _⟩

theorem Arrives.trans {start middle last : Ascent} (first : Arrives store scope start middle)
    (second : Arrives store scope middle last) : Arrives store scope start last := by
  obtain ⟨before,rfl⟩ := first
  obtain ⟨after,rfl⟩ := second
  exact ⟨after + before,Function.iterate_add_apply _ _ _ _⟩

/-- Steps lead to where an outcome is known, or to the end if it is an error. -/
def Settles {α : Type} (store : Store β) (scope : Scope) (start : Ascent)
    (known : α → Memo → Ascent) : Except Error α × Memo → Prop
  | (.ok a,memo) => Arrives store scope start (known a memo)
  | (.error e,memo) => ∃ left, Arrives store scope start (.ended (.error e) left memo)

theorem Settles.step {α : Type} {start : Ascent} {known : α → Memo → Ascent}
    {outcome : Except Error α × Memo}
    (rest : Settles store scope (start.advance store scope) known outcome) :
    Settles store scope start known outcome := by
  rcases outcome with ⟨e | a,memo⟩
  · obtain ⟨left,arrives⟩ := rest
    exact ⟨left,arrives.step⟩
  · exact Arrives.step rest

theorem Settles.bind {α γ : Type} {start : Ascent} {known : α → Memo → Ascent}
    {onward : γ → Memo → Ascent} {a : Action Memo α} {f : α → Action Memo γ} {memo : Memo}
    (first : Settles store scope start known (a.run memo))
    (second : ∀ x later, Settles store scope (known x later) onward ((f x).run later)) :
    Settles store scope start onward ((a >>= f).run memo) := by
  rw [Action.run_bind]
  rcases before : a.run memo with ⟨e | x,later⟩ <;> rw [before] at first
  · exact first
  · have rest := second x later
    simp only
    rcases after : (f x).run later with ⟨e | y,last⟩ <;> rw [after] at rest
    · obtain ⟨left,arrives⟩ := rest
      exact ⟨left,Arrives.trans first arrives⟩
    · exact Arrives.trans first rest

/-- The parents are asked one after the other if each comes to the outcome of its computation. -/
theorem settles_walk {compute : ClassId → Action Memo (List String)} {c : ClassId}
    {callers : List Visit}
    (asked : ∀ d pending rows memo, Settles store scope (.ask d (⟨c,pending,rows⟩ :: callers) memo)
      (fun order memo => .answer d order (⟨c,pending,rows⟩ :: callers) memo)
      ((compute d).run memo)) (pending : List String) (rows : List (String × List String))
    (memo : Memo) :
    Settles store scope (.walk ⟨c,pending,rows⟩ callers memo)
      (fun others memo => .walk ⟨c,[],rows ++ others⟩ callers memo)
      ((ClassId.parentOrders store scope compute pending).run memo) := by
  induction pending generalizing rows memo with
  | nil =>
    refine (?_ : Arrives store scope (.walk ⟨c,[],rows⟩ callers memo)
      (.walk ⟨c,[],rows ++ []⟩ callers memo))
    rw [List.append_nil]
    exact .refl _
  | cons parent rest ih =>
    rw [ClassId.parentOrders,Action.run_bind,Action.run_ofExcept]
    cases found : scope.lookupClass store parent with
    | error e =>
      refine .step ?_
      simp only [advance,found]
      exact ⟨_,.refl _⟩
    | ok d =>
      refine .step ?_
      simp only [advance,found]
      refine .bind (asked d rest rows memo) fun order later => .step ?_
      refine .bind (ih (rows ++ [((store.classOf d).qualifiedName,order)]) later)
        fun others last => ?_
      rw [List.append_assoc]
      exact Arrives.refl _

/-- A class that is asked comes to the outcome of the bounded recursion: the stack is a trail, so
the budget is never used up. -/
theorem settles_ask {budget : Nat} {callers : List Visit}
    (trail : Trail store budget (path store callers)) (c : ClassId) (memo : Memo) :
    Settles store scope (.ask c callers memo) (fun order memo => .answer c order callers memo)
      ((ClassId.computeOrder store scope budget (path store callers) c).run memo) := by
  induction budget generalizing callers c memo with
  | zero =>
    obtain ⟨_,impossible⟩ := trail.budget_pos
    contradiction
  | succ budget ih =>
    refine .step ?_
    rw [ClassId.computeOrder,Action.run_bind,Action.run_get]
    cases known : memo.get? c with
    | some order =>
      simp only [advance,known]
      exact Arrives.refl _
    | none =>
      simp only [advance,known,List.contains_iff_mem]
      split
      · exact ⟨callers,.refl _⟩
      next offPath =>
        split
        · exact Arrives.refl _
        next childless =>
          -- A class that has parents is there, so its name may go on the trail.
          obtain ⟨parent,declared⟩ := List.exists_mem_of_ne_nil _ (mt List.isEmpty_iff.mpr childless)
          have longer := trail.extend (ClassId.lt_size_of_parent declared) offPath
          refine .bind (settles_walk (fun d pending rows memo => ?_) _ [] memo)
            fun rows later => .step ?_
          · rw [← path_cons ⟨c,pending,rows⟩] at longer ⊢
            exact ih longer d memo
          · simp only [advance,List.nil_append]
            cases ClassId.mergeParents (store.classOf c).qualifiedName rows with
            | error e => exact ⟨callers,.refl _⟩
            | ok order => exact Arrives.refl _

theorem Settles.ends {c : ClassId} {memo : Memo} {outcome : Except Error (List String) × Memo}
    (settles : Settles store scope (.ask c [] memo) (fun order memo => .answer c order [] memo)
      outcome) :
    ∃ left, Arrives store scope (.ask c [] memo) (.ended outcome.1 left outcome.2) := by
  rcases outcome with ⟨e | order,later⟩
  · exact settles
  · exact ⟨[],Arrives.trans settles (.step (.refl _))⟩

/-- No name is on the stack twice. The classes under way and the one that is asked are ancestors of
the first, and a visit has parents of its class before it. -/
structure Climbs (store : Store β) (scope : Scope) (c : ClassId) (a : Ascent) : Prop where
  distinct : (path store a.visits).Nodup
  visited : ∀ visit ∈ a.visits, Relation.ReflTransGen (Declares store scope) c visit.owner ∧
    visit.pending ⊆ (store.classOf visit.owner).parents
  asked : ∀ d callers memo, a = .ask d callers memo →
    Relation.ReflTransGen (Declares store scope) c d

variable {c : ClassId} {a : Ascent}

theorem Climbs.unwind {next : Ascent} (climbs : Climbs store scope c a)
    (fewer : next.visits.Sublist a.visits) (unasked : ∀ d callers memo, next ≠ .ask d callers memo) :
    Climbs store scope c next where
  distinct := climbs.distinct.sublist (fewer.map _).reverse
  visited visit member := climbs.visited visit (fewer.subset member)
  asked d callers memo asked := absurd asked (unasked d callers memo)

theorem Climbs.advance (climbs : Climbs store scope c a) :
    Climbs store scope c (a.advance store scope) := by
  cases a with
  | ask d callers memo =>
    have reached := climbs.asked d callers memo rfl
    simp only [Ascent.advance]
    split
    · exact climbs.unwind (.refl _) nofun
    split
    · exact climbs.unwind (.refl _) nofun
    next offPath =>
    split
    · exact climbs.unwind (.refl _) nofun
    · refine ⟨?_,List.forall_mem_cons.mpr ⟨⟨reached,List.Subset.refl _⟩,climbs.visited⟩,nofun⟩
      rw [visits,path_cons,← List.concat_eq_append]
      exact .concat offPath climbs.distinct
  | walk visit callers memo =>
    obtain ⟨d,pending,rows⟩ := visit
    obtain ⟨⟨reached,declared⟩,others⟩ := List.forall_mem_cons.mp climbs.visited
    cases pending with
    | nil =>
      simp only [Ascent.advance]
      cases ClassId.mergeParents (store.classOf d).qualifiedName rows <;>
        exact climbs.unwind (List.sublist_cons_self _ _) nofun
    | cons parent rest =>
      obtain ⟨first,later⟩ := List.cons_subset.mp declared
      simp only [Ascent.advance]
      cases found : scope.lookupClass store parent with
      | error e => exact climbs.unwind (.refl _) nofun
      | ok e =>
        refine ⟨climbs.distinct,List.forall_mem_cons.mpr ⟨⟨reached,later⟩,others⟩,?_⟩
        rintro _ _ _ ⟨⟩
        exact reached.tail ⟨parent,first,found⟩
  | answer d order callers memo =>
    cases callers with
    | nil => exact climbs.unwind (.refl _) nofun
    | cons visit callers =>
      obtain ⟨same,others⟩ := List.forall_mem_cons.mp climbs.visited
      exact ⟨climbs.distinct,List.forall_mem_cons.mpr ⟨same,others⟩,nofun⟩
  | ended => exact climbs

theorem Climbs.run (memo : Memo) (count : Nat) :
    Climbs store scope c ((Ascent.advance store scope)^[count] (.ask c [] memo)) := by
  induction count with
  | zero =>
    refine ⟨List.nodup_nil,nofun,?_⟩
    rintro _ _ _ ⟨⟩
    exact .refl
  | succ count ih =>
    rw [Function.iterate_succ_apply']
    exact ih.advance

theorem Climbs.exists_of_mem_path {name : String} (climbs : Climbs store scope c a)
    (member : name ∈ path store a.visits) :
    ∃ d, Relation.ReflTransGen (Declares store scope) c d ∧
      (store.classOf d).qualifiedName = name := by
  obtain ⟨visit,present,named⟩ := List.mem_map.mp (List.mem_reverse.mp member)
  exact ⟨visit.owner,(climbs.visited visit present).1,named⟩

theorem Climbs.declared {parent : String} (climbs : Climbs store scope c a)
    (next : a.parent? = some parent) :
    ∃ d, Relation.ReflTransGen (Declares store scope) c d ∧
      parent ∈ (store.classOf d).parents := by
  cases a with
  | walk visit callers memo =>
    obtain ⟨reached,declared⟩ := climbs.visited visit List.mem_cons_self
    exact ⟨visit.owner,reached,declared (List.mem_of_head? next)⟩
  | ask | answer | ended => contradiction

variable {e : Error} {left : List Visit} {memo : Memo}

/-- A step that ends with an error meets a fault of the hierarchy or misses a parent. -/
theorem error_of_advance (final : a.advance store scope = .ended (.error e) left memo) :
    a = .ended (.error e) left memo ∨ (∃ name fault, e = .inconsistentHierarchy name fault) ∨
    ∃ parent, a.parent? = some parent ∧ scope.lookupClass store parent = .error e := by
  cases a with
  | ask d callers memo =>
    simp only [advance] at final
    split at final
    · contradiction
    split at final
    · injection final with failed
      exact .inr (.inl ⟨_,_,(Except.error.inj failed).symm⟩)
    split at final <;> contradiction
  | walk visit callers memo =>
    obtain ⟨d,pending,rows⟩ := visit
    cases pending with
    | nil =>
      simp only [advance,ClassId.mergeParents] at final
      split at final
      next failed =>
        split at failed
        · contradiction
        · injection final with same
          obtain rfl := Except.error.inj same
          exact .inr (.inl ⟨_,_,(Except.error.inj failed).symm⟩)
      next => contradiction
    | cons parent rest =>
      simp only [advance] at final
      split at final
      next missing =>
        injection final with failed
        obtain rfl := Except.error.inj failed
        exact .inr (.inr ⟨parent,rfl,missing⟩)
      next => contradiction
  | answer d order callers memo =>
    cases callers with
    | nil =>
      injection final with failed
      contradiction
    | cons visit callers => contradiction
  | ended => exact .inl final

theorem error_of_run {count : Nat} {start : Ascent} (begun : ∀ result left memo,
      start ≠ .ended result left memo)
    (final : (advance store scope)^[count] start = .ended (.error e) left memo) :
    (∃ name fault, e = .inconsistentHierarchy name fault) ∨
    ∃ earlier parent, ((advance store scope)^[earlier] start).parent? = some parent ∧
      scope.lookupClass store parent = .error e := by
  induction count with
  | zero => exact absurd final (begun _ _ _)
  | succ count ih =>
    rw [Function.iterate_succ_apply'] at final
    rcases error_of_advance final with already | fault | missing
    · exact ih already
    · exact .inl fault
    · exact .inr ⟨count,missing⟩

end Ascent

/-- Some class among the class and its ancestors inherits from itself. -/
def Circular (store : Store β) (scope : Scope) (c : ClassId) : Prop :=
  ∃ d, Relation.ReflTransGen (Declares store scope) c d ∧
    Relation.TransGen (Declares store scope) d d

theorem Linearizes.not_circular {c : ClassId} {order : List String}
    (linearizes : Linearizes store scope c order) : ¬Circular store scope c := by
  rintro ⟨d,ancestor,cycle⟩
  obtain ⟨_,own⟩ := linearizes.ancestor ancestor
  exact own.acyclic cycle

theorem ClassId.recorded_of_linearization {c : ClassId} {order : List String}
    (computed : ((c.linearization scope).run store).1 = .ok order) :
    c.recorded? ((c.linearization scope).run store).2 = some order := by
  have met : ∀ name d, scope.lookupClass store name = .ok d → (fun _ => True) d :=
    fun _ _ _ => trivial
  exact (linearization_records met c trivial).2 order computed

theorem ClassId.linearizes_of_recorded {c d : ClassId} {order : List String}
    (blank : ∀ d : ClassId, d.recorded? store = none)
    (recorded : d.recorded? ((c.linearization scope).run store).2 = some order) :
    Linearizes store scope d order := by
  have sound : Sound scope store store.memo := by
    intro d order known
    rw [show store.memo.get? d = none from blank d] at known
    contradiction
  have met : ∀ name d, scope.lookupClass store name = .ok d → (fun _ => True) d :=
    fun _ _ _ => trivial
  exact records_sound sound (linearization_records met c trivial).1 d order recorded

/-- The order of any class, asked for in any scope of any store with anything recorded. The
computation comes to an end, with the outcome of the bounded recursion. At every point the names on
the stack are distinct, and each is that of the class asked for or of a class that the scope sees.
And where nothing is recorded, no class whose ancestry is circular is recorded afterwards; if it
is the class asked for, and no parent is looked up in vain, the error is one of the hierarchy. -/
theorem linearization_terminates (store : Store β) (scope : Scope) (c : ClassId) :
    let course := fun count => (Ascent.advance store scope)^[count] (.ask c [] store.memo)
    let result := ((c.linearization scope).run store).1
    let after := ((c.linearization scope).run store).2
    (∃ count left, course count = .ended result left after.memo) ∧
    (∀ count, (Ascent.path store (course count).visits).Nodup ∧
      ∀ name ∈ Ascent.path store (course count).visits,
        name = (store.classOf c).qualifiedName ∨
        ∃ label d, scope.lookupClass store label = .ok d ∧
          name = (store.classOf d).qualifiedName) ∧
    ((∀ d : ClassId, d.recorded? store = none) →
      (∀ d : ClassId, Circular store scope d → d.recorded? after = none) ∧
      (Circular store scope c →
        (∀ count parent, (course count).parent? = some parent →
          ∃ d, scope.lookupClass store parent = .ok d) →
        ∃ name fault, result = .error (.inconsistentHierarchy name fault))) := by
  intro course result after
  have ends : ∃ count left, course count = .ended result left after.memo := by
    obtain ⟨left,count,final⟩ := (Ascent.settles_ask (.start store) c store.memo).ends
    exact ⟨count,left,final⟩
  refine ⟨ends,fun count => ?_,fun blank => ⟨fun d circular => ?_,fun circular visible => ?_⟩⟩
  · have climbs : Ascent.Climbs store scope c (course count) := .run store.memo count
    refine ⟨climbs.distinct,fun name member => ?_⟩
    obtain ⟨d,reached,rfl⟩ := climbs.exists_of_mem_path member
    rcases Relation.ReflTransGen.cases_tail reached with rfl | ⟨e,_,label,_,found⟩
    · exact .inl rfl
    · exact .inr ⟨label,d,found,rfl⟩
  · cases recorded : d.recorded? after with
    | none => rfl
    | some order => exact absurd circular (ClassId.linearizes_of_recorded blank recorded).not_circular
  · obtain ⟨count,left,final⟩ := ends
    cases outcome : result with
    | ok order =>
      have recorded := c.recorded_of_linearization outcome
      exact absurd circular (ClassId.linearizes_of_recorded blank recorded).not_circular
    | error e =>
      rw [outcome] at final
      have begun : ∀ result left memo, Ascent.ask c [] store.memo ≠ .ended result left memo := nofun
      rcases Ascent.error_of_run begun final with ⟨name,fault,rfl⟩ | ⟨earlier,parent,next,missing⟩
      · exact ⟨name,fault,rfl⟩
      · obtain ⟨d,found⟩ := visible earlier parent next
        rw [found] at missing
        contradiction

/-! Two classes that inherit from each other, and a third that inherits from one of them. -/
namespace Ouroboros

def global : Scope := Runtime.first.global

def definitions : List (Class Unit) :=
  [{ name := "A", parents := ["B"] },{ name := "B", parents := ["A"] },
    { name := "C", parents := ["A"] }]

def world : World Unit Unit :=
  World.first.play .idle
    (definitions.map fun c => .ask Runtime.first.globalContext (.defineClass c))

theorem visible {d : ClassId} {parent : String}
    (declared : parent ∈ (world.store.classOf d).parents) :
    ∃ e, global.lookupClass world.store parent = .ok e := by
  have present : d.index < 3 := ClassId.lt_size_of_parent declared
  obtain ⟨_ | _ | _ | index⟩ := d
  · obtain rfl := List.mem_singleton.mp declared
    exact ⟨⟨1⟩,rfl⟩
  · obtain rfl := List.mem_singleton.mp declared
    exact ⟨⟨0⟩,rfl⟩
  · obtain rfl := List.mem_singleton.mp declared
    exact ⟨⟨0⟩,rfl⟩
  · exact absurd present (by simp)

theorem circular : Circular world.store global ⟨2⟩ := by
  have up : Declares world.store global ⟨0⟩ ⟨1⟩ := ⟨"B",List.mem_singleton_self _,rfl⟩
  have back : Declares world.store global ⟨1⟩ ⟨0⟩ := ⟨"A",List.mem_singleton_self _,rfl⟩
  exact ⟨⟨0⟩,.single ⟨"A",List.mem_singleton_self _,rfl⟩,.tail (.single up) back⟩

end Ouroboros

/-- The third class is refused, and it is not recorded. -/
theorem linearization_terminates_ouroboros :
    (∃ name fault,
      ((ClassId.linearization ⟨2⟩ Ouroboros.global).run Ouroboros.world.store).1 =
        .error (.inconsistentHierarchy name fault)) ∧
    ClassId.recorded? ⟨2⟩
      ((ClassId.linearization ⟨2⟩ Ouroboros.global).run Ouroboros.world.store).2 = none := by
  obtain ⟨_,_,blank⟩ := linearization_terminates Ouroboros.world.store Ouroboros.global ⟨2⟩
  obtain ⟨unrecorded,refused⟩ := blank fun _ => rfl
  refine ⟨refused Ouroboros.circular fun count parent next => ?_,unrecorded _ Ouroboros.circular⟩
  obtain ⟨d,_,declared⟩ := (Ascent.Climbs.run Ouroboros.world.store.memo count).declared next
  exact Ouroboros.visible declared

example : (Ascent.advance Ouroboros.world.store Ouroboros.global)^[7] (.ask ⟨2⟩ [] []) =
    .ended (.error (.inconsistentHierarchy "A" (.cycle ["C","A","B"])))
      [⟨⟨1⟩,[],[]⟩,⟨⟨0⟩,[],[]⟩,⟨⟨2⟩,[],[]⟩] [] := rfl

end ObjectModel
