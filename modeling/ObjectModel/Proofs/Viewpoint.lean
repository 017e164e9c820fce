import ObjectModel.Proofs.History
import ObjectModel.Proofs.Recording

/-! What depends on who asks first. Parents are looked up from the scope that asks, while the order
found is recorded for everyone. `Sees` is the order of a class as one scope sees it, given what is
recorded already. Two scopes record the same order exactly if they see the same one, and they do
if every parent name on the way means the same class to both. A scope that shadows a parent's name
records another order. -/
namespace ObjectModel

variable {β : Type} {store : Store β} {scope near far : Scope} {c d : ClassId}
  {order other : List String}

/-- The order of a class from a scope: the recorded one, or else what follows from the orders of
its parents as the scope finds and sees them. -/
inductive Sees (store : Store β) (scope : Scope) : ClassId → List String → Prop where
  | recorded {c : ClassId} {order : List String} (known : store.memo.get? c = some order) :
      Sees store scope c order
  | inherit {c : ClassId} {rows : List (ClassId × List String)} {order : List String}
      (fresh : store.memo.get? c = none) (inherits : Inherits store scope c rows order)
      (parents : ∀ row ∈ rows, Sees store scope row.1 row.2) : Sees store scope c order

theorem rows_eq_of_classes {rows others : List (ClassId × List String)}
    (same : rows.map (·.1) = others.map (·.1))
    (agree : ∀ row ∈ rows, ∀ other ∈ others, row.1 = other.1 → row.2 = other.2) :
    rows = others := by
  induction rows generalizing others with
  | nil => exact (List.map_eq_nil_iff.mp same.symm).symm
  | cons row rows ih =>
    cases others with
    | nil => simp at same
    | cons other others =>
      obtain ⟨first,rest⟩ := List.cons_eq_cons.mp same
      have order := agree row List.mem_cons_self other List.mem_cons_self first
      have tail := ih rest fun row member other present =>
        agree row (List.mem_cons_of_mem _ member) other (List.mem_cons_of_mem _ present)
      rw [tail,Prod.ext first order]

theorem Inherits.unique {rows others : List (ClassId × List String)}
    (first : Inherits store scope c rows order) (second : Inherits store scope c others other)
    (agree : ∀ row ∈ rows, ∀ other ∈ others, row.1 = other.1 → row.2 = other.2) :
    order = other := by
  have lookups : rows.map (fun row => (.ok row.1 : Except Error ClassId)) =
      others.map (fun row => .ok row.1) := first.found.symm.trans second.found
  have classes : rows.map (·.1) = others.map (·.1) := by
    have inner := congrArg (List.map fun found : Except Error ClassId => found.toOption) lookups
    simp only [List.map_map,Function.comp_def,Except.toOption] at inner
    have unwrapped := congrArg (List.map fun found : Option ClassId => found.getD c) inner
    simpa [List.map_map,Function.comp_def] using unwrapped
  obtain rfl := rows_eq_of_classes classes agree
  obtain ⟨rest,rfl,merges⟩ := first.merged
  obtain ⟨again,rfl,merges'⟩ := second.merged
  rw [merges.unique merges']

theorem Sees.unique (first : Sees store scope c order) (second : Sees store scope c other) :
    order = other := by
  induction first generalizing other with
  | recorded known =>
    cases second with
    | recorded again => exact Option.some.inj (known.symm.trans again)
    | inherit fresh => simp [known] at fresh
  | inherit fresh inherits parents ih =>
    cases second with
    | recorded known => simp [known] at fresh
    | inherit _ again others =>
      refine inherits.unique again fun row member other present same => ?_
      exact ih row member (same ▸ others other present)

theorem Sees.record {met : ClassId → Prop} {memo : Memo}
    (steps : Relation.ReflTransGen (Records store scope met) store.memo memo)
    (known : memo.get? c = some order) : Sees store scope c order := by
  induction steps generalizing c order with
  | refl => exact .recorded known
  | @tail before after earlier step ih =>
    obtain ⟨_,fresh,inherits,rows⟩ := step
    rcases Memo.get?_record_cases fresh known with ⟨rfl,rfl⟩ | old
    · have unknown : store.memo.get? c = none := by
        by_contra entry
        obtain ⟨order,entry⟩ := Option.ne_none_iff_exists'.mp entry
        simp [records_extends earlier c order entry] at fresh
      exact .inherit unknown inherits fun row member => ih (rows row member)
    · exact ih old

/-- A success is the order that the scope sees, and it is recorded. -/
theorem ClassId.linearization_sees (success : ((c.linearization scope).run store).1 = .ok order) :
    Sees store scope c order ∧
      c.recorded? ((c.linearization scope).run store).2 = some order := by
  have met : ∀ name d, scope.lookupClass store name = .ok d → (fun _ => True) d :=
    fun _ _ _ => trivial
  obtain ⟨steps,known⟩ := ClassId.linearization_records met c trivial
  exact ⟨.record steps (known order success),known order success⟩

/-- The computation for the first class goes on to the second: it is a parent that the scope
finds, and nothing is recorded yet for the first. -/
def Consults (store : Store β) (scope : Scope) (c d : ClassId) : Prop :=
  store.memo.get? c = none ∧ Declares store scope c d

def Agrees (store : Store β) (near far : Scope) (c : ClassId) : Prop :=
  ∀ d, Relation.ReflTransGen (Consults store near) c d → store.memo.get? d = none →
    ∀ parent ∈ (store.classOf d).parents,
      near.lookupClass store parent = far.lookupClass store parent

theorem Sees.transfer (sees : Sees store near c order) (agrees : Agrees store near far c) :
    Sees store far c order := by
  induction sees with
  | recorded known => exact .recorded known
  | @inherit c rows order fresh inherits parents ih =>
    have same : Inherits store far c rows order := by
      refine ⟨?_,inherits.merged⟩
      rw [← inherits.found]
      exact List.map_congr_left fun parent declared =>
        (agrees c .refl fresh parent declared).symm
    refine .inherit fresh same fun row member => ih row member fun d reached => ?_
    obtain ⟨parent,declared,found⟩ := inherits.exists_parent member
    exact agrees d (reached.head ⟨fresh,parent,declared,found⟩)

/-- Every later asker gets what the first one saw. Two scopes that both succeed leave the same
order for a class exactly if they see the same order of it, and so whenever they agree on the
parent names that are looked up. -/
theorem first_asker_irrelevant_iff {first second : List String}
    (here : ((c.linearization near).run store).1 = .ok first)
    (there : ((c.linearization far).run store).1 = .ok second) :
    (∀ asker, ((c.linearization asker).run ((c.linearization near).run store).2).1 = .ok first ∧
      ((c.linearization asker).run ((c.linearization far).run store).2).1 = .ok second) ∧
    (c.recorded? ((c.linearization near).run store).2 =
        c.recorded? ((c.linearization far).run store).2 ↔
      ∃ order, Sees store near c order ∧ Sees store far c order) ∧
    (Agrees store near far c →
      c.recorded? ((c.linearization near).run store).2 =
        c.recorded? ((c.linearization far).run store).2) := by
  obtain ⟨seen,left⟩ := ClassId.linearization_sees here
  obtain ⟨seen',right⟩ := ClassId.linearization_sees there
  have same : c.recorded? ((c.linearization near).run store).2 =
        c.recorded? ((c.linearization far).run store).2 ↔
      ∃ order, Sees store near c order ∧ Sees store far c order := by
    rw [left,right,Option.some.injEq]
    constructor
    · rintro rfl
      exact ⟨first,seen,seen'⟩
    · rintro ⟨order,one,two⟩
      exact (seen.unique one).trans (two.unique seen')
  refine ⟨fun asker => ⟨?_,?_⟩,same,fun agrees => same.mpr ⟨first,seen,seen.transfer agrees⟩⟩
  · rw [ClassId.linearization_of_recorded left]
  · rw [ClassId.linearization_of_recorded right]

/-! A class and its parent in the global scope, and a scope inside that gives the parent's name to
a class of its own later. -/
namespace Shadow

def runtime : Runtime := (Runtime.create defaultCallDepth false (.empty : Store Unit)).1

def inner : Scope := ⟨1⟩

def child : ClassId := ⟨1⟩

def before : World Unit Unit :=
  World.play .idle ⟨(Runtime.create defaultCallDepth false .empty).2,()⟩
    [.ask runtime.globalContext (.defineClass { name := "P", modulePath := "m" }),
      .ask runtime.globalContext
        (.defineClass { name := "C", modulePath := "m", parents := ["P"] }),
      .enter runtime.global]

def after : World Unit Unit :=
  (Move.ask { runtime, scope := inner }
    (.defineClass { name := "P", modulePath := "k" })).perform .idle before

end Shadow

theorem first_asker_irrelevant_iff_shadow :
    Shadow.child.recorded? ((Shadow.child.linearization Shadow.runtime.global).run
        Shadow.before.store).2 =
      Shadow.child.recorded? ((Shadow.child.linearization Shadow.inner).run
        Shadow.before.store).2 ∧
    ¬∃ order, Sees Shadow.after.store Shadow.runtime.global Shadow.child order ∧
      Sees Shadow.after.store Shadow.inner Shadow.child order := by
  have agree := first_asker_irrelevant_iff
    (show ((Shadow.child.linearization Shadow.runtime.global).run Shadow.before.store).1 =
      .ok ["m.C","m.P"] from rfl)
    (show ((Shadow.child.linearization Shadow.inner).run Shadow.before.store).1 =
      .ok ["m.C","m.P"] from rfl)
  have differ := first_asker_irrelevant_iff
    (show ((Shadow.child.linearization Shadow.runtime.global).run Shadow.after.store).1 =
      .ok ["m.C","m.P"] from rfl)
    (show ((Shadow.child.linearization Shadow.inner).run Shadow.after.store).1 =
      .ok ["m.C","k.P"] from rfl)
  refine ⟨agree.2.2 fun _ _ _ _ _ => rfl,?_⟩
  rw [← differ.2.1]
  decide

/-- The order recorded for a class depends on which of two scopes asks first. -/
theorem first_asker_decides :
    (Shadow.after.store.frame Shadow.runtime.global).classes.get? "m.C" = some Shadow.child ∧
    Shadow.runtime.global ∈ Shadow.after.store.chain Shadow.inner ∧
    Shadow.child.recorded? Shadow.after.store = none ∧
    Shadow.child.recorded? ((Shadow.child.linearization Shadow.runtime.global).run
      Shadow.after.store).2 = some ["m.C","m.P"] ∧
    Shadow.child.recorded? ((Shadow.child.linearization Shadow.inner).run
      Shadow.after.store).2 = some ["m.C","k.P"] := by
  decide

end ObjectModel
