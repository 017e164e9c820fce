import ObjectModel.Proofs.MemberAccess

/-! Variables as scopes see them. A scope sees the variable of the nearest scope around it that
defines the name, and finding, testing and assigning all come to that one. A variable put into a
scope is what the scopes inside see under its name, up to those that define the name again; this
says what an assignment and a definition do to every scope of the tree, near and far. -/
namespace ObjectModel

variable {β : Type}

/-- A first-hit search in which one element comes to hit. It is found unless an earlier element hits,
and then the search goes as before. -/
theorem findSome?_hit {α γ : Type} [DecidableEq α] (f : α → Option γ) (a : α) (c : γ)
    (l : List α) :
    ((∃ near far, l = near ++ a :: far ∧ ∀ x ∈ near, f x = none) →
      l.findSome? (fun x => if x = a then some c else f x) = some c) ∧
    ((¬∃ near far, l = near ++ a :: far ∧ ∀ x ∈ near, f x = none) →
      l.findSome? (fun x => if x = a then some c else f x) = l.findSome? f) := by
  induction l with
  | nil => simp
  | cons x rest ih =>
    by_cases here : x = a
    · refine ⟨fun _ => by simp [here],fun never => absurd ⟨[],rest,by simp [here],nofun⟩ never⟩
    · cases hit : f x with
      | some d =>
        refine ⟨?_,fun _ => by simp [here,hit]⟩
        rintro ⟨near,far,split,passed⟩
        cases near with
        | nil => exact absurd (List.cons.inj split).1 here
        | cons y near =>
          obtain ⟨rfl,_⟩ := List.cons.inj split
          simp [passed x List.mem_cons_self] at hit
      | none =>
        simp only [List.findSome?_cons,here,if_false,hit]
        refine ⟨fun ⟨near,far,split,passed⟩ => ih.1 ?_,fun never => ih.2 ?_⟩
        · cases near with
          | nil => exact absurd (List.cons.inj split).1 here
          | cons y near =>
            exact ⟨near,far,(List.cons.inj split).2,fun z inside =>
              passed z (List.mem_cons_of_mem y inside)⟩
        · rintro ⟨near,far,rfl,passed⟩
          refine never ⟨x :: near,far,rfl,fun z inside => ?_⟩
          rcases List.mem_cons.mp inside with rfl | inside
          · exact hit
          · exact passed z inside

namespace Scope

variable {scope home owner : Scope} {store later : Store β} {name : String} {v : Variable}
  {value : Value}

def Reaches (scope : Scope) (store : Store β) (name : String) (home : Scope) : Prop :=
  ∃ near far, store.chain scope = near ++ home :: far ∧
    ∀ s ∈ near, (store.frame s).bindings.get? name = none

/-- The nearest scope that defines the name, with the variable that it has under it. -/
structure Finds (scope : Scope) (store : Store β) (name : String) (owner : Scope)
    (v : Variable) : Prop where
  reaches : scope.Reaches store name owner
  held : (store.frame owner).bindings.get? name = some v

theorem lookupVariable_eq_ok_iff :
    scope.lookupVariable store name = .ok v ↔ ∃ owner, scope.Finds store name owner v := by
  have first : scope.lookupVariable store name = .ok v ↔
      (store.chain scope).findSome? (fun s => (store.frame s).bindings.get? name) = some v := by
    unfold lookupVariable nearest?
    cases (store.chain scope).findSome? fun s => (store.frame s).bindings.get? name <;> simp
  rw [first,List.findSome?_eq_some_iff]
  constructor
  · rintro ⟨near,owner,far,split,held,passed⟩
    exact ⟨owner,⟨near,far,split,passed⟩,held⟩
  · rintro ⟨owner,⟨near,far,split,passed⟩,held⟩
    exact ⟨near,owner,far,split,held,passed⟩

theorem owner?_eq_some_iff :
    scope.owner? store name = some owner ↔ ∃ v, scope.Finds store name owner v := by
  simp only [owner?,List.find?_eq_some_iff_append,definesHere,Table.contains,
    Option.isSome_iff_exists,Option.isSome_eq_false_iff,Option.isNone_iff_eq_none,
    Bool.not_eq_eq_eq_not,Bool.not_true]
  constructor
  · rintro ⟨⟨v,held⟩,reaches⟩
    exact ⟨v,reaches,held⟩
  · rintro ⟨v,reaches,held⟩
    exact ⟨⟨v,held⟩,reaches⟩

theorem Finds.owner? (finds : scope.Finds store name owner v) :
    scope.owner? store name = some owner :=
  owner?_eq_some_iff.mpr ⟨v,finds⟩

theorem Finds.lookupVariable (finds : scope.Finds store name owner v) :
    scope.lookupVariable store name = .ok v :=
  lookupVariable_eq_ok_iff.mpr ⟨owner,finds⟩

theorem lt_size_of_get? (held : (store.frame home).bindings.get? name = some v) :
    home.index < store.frames.size := by
  by_contra absent
  rw [Store.frame_of_size_le (Nat.le_of_not_lt absent)] at held
  contradiction

theorem sees_iff_exists_lookupVariable :
    scope.sees store name = true ↔ ∃ v, scope.lookupVariable store name = .ok v := by
  simp only [sees,Option.isSome_iff_exists,owner?_eq_some_iff,lookupVariable_eq_ok_iff]
  exact exists_comm

def put (home : Scope) (store : Store β) (name : String) (v : Variable) : Store β :=
  store.modifyFrame home fun frame => { frame with bindings := frame.bindings.insert name v }

theorem chain_put (home : Scope) (store : Store β) (name : String) (v : Variable) (t : Scope) :
    (home.put store name v).chain t = store.chain t := by
  rcases store.frame_modifyFrame_cases home t _ with same | ⟨_,same⟩ <;>
    rw [Store.chain,put,same,Store.chain]

theorem get?_put (present : home.index < store.frames.size) (name m : String) (v : Variable)
    (t : Scope) :
    ((home.put store name v).frame t).bindings.get? m =
      if t = home then if m = name then some v else (store.frame t).bindings.get? m
      else (store.frame t).bindings.get? m := by
  unfold put
  by_cases here : t = home
  · subst here
    rw [Store.frame_modifyFrame_self present]
    by_cases same : m = name
    · simp [same]
    · simp [same,Table.get?_insert_of_ne same]
  · simp [here,Store.frame_modifyFrame_of_ne here]

/-- What is put into a scope is seen from where the scope is reached, and nothing else changes for
any scope. -/
theorem lookupVariable_put (present : home.index < store.frames.size) (name m : String)
    (v : Variable) (t : Scope) :
    (m = name ∧ t.Reaches store name home →
      t.lookupVariable (home.put store name v) m = .ok v) ∧
    (¬(m = name ∧ t.Reaches store name home) →
      t.lookupVariable (home.put store name v) m = t.lookupVariable store m) := by
  simp only [lookupVariable,nearest?,chain_put,get?_put present]
  by_cases same : m = name
  · subst same
    simp only [true_and,if_true]
    obtain ⟨found,missed⟩ := findSome?_hit (fun s => (store.frame s).bindings.get? m) home v
      (store.chain t)
    refine ⟨fun reaches => ?_,fun never => ?_⟩
    · rw [found reaches]
    · rw [missed never]
  · simp [same]

theorem run_assign_of_unseen (unseen : scope.owner? store name = none) (value : Value) :
    (scope.assign name value).run store = (.error (.notFound .scopeVariable name),store) := by
  simp only [assign,Action.run_bind,Action.run_get,unseen,Action.run_fail]

theorem Finds.run_assign (finds : scope.Finds store name owner v) (value : Value) :
    (scope.assign name value).run store =
      match v.assign store value with
      | .error e => (.error e,store)
      | .ok next => (.ok (),owner.put store name next) := by
  simp only [assign,Action.run_bind,Action.run_get,finds.owner?,finds.held,Action.run_ofExcept]
  cases v.assign store value <;> rfl

/-- Code sees a variable where it may assign it, up to the lock and the value. -/
theorem sees_iff_assign (value : Value) :
    scope.sees store name = true ↔
      ∀ e, ((scope.assign name value).run store).1 = .error e → e.isNotFound = false := by
  cases found : scope.owner? store name with
  | none =>
    rw [run_assign_of_unseen found]
    simp [sees,found,Error.isNotFound]
  | some owner =>
    obtain ⟨v,finds⟩ := owner?_eq_some_iff.mp found
    refine iff_of_true (by simp [sees,found]) fun e failed => ?_
    rw [finds.run_assign] at failed
    cases assigned : v.assign store value with
    | ok next => simp [assigned] at failed
    | error cause =>
      simp only [assigned,Except.error.injEq] at failed
      subst failed
      have reason := Variable.isLocked_or_isCast_of_assign assigned
      cases cause <;> simp [Error.isLocked,Error.isCast,Error.isNotFound] at reason ⊢

theorem eq_put_of_assign (set : (scope.assign name value).run store = (.ok (),later)) :
    ∃ owner v fitted, scope.Finds store name owner v ∧ value.cast store v.type = .ok fitted ∧
      later = owner.put store name { v with value := fitted } := by
  cases found : scope.owner? store name with
  | none => simp [run_assign_of_unseen found] at set
  | some owner =>
    obtain ⟨v,finds⟩ := owner?_eq_some_iff.mp found
    rw [finds.run_assign] at set
    cases assigned : v.assign store value with
    | error cause => simp [assigned] at set
    | ok next =>
      simp only [assigned,Prod.mk.injEq,true_and] at set
      obtain ⟨_,fitted,fits,rfl⟩ := Variable.assign_eq_ok_iff.mp assigned
      exact ⟨owner,v,fitted,finds,fits,set.symm⟩

theorem eq_put_of_define {type : TypeName} {locked : Bool}
    (defined : (scope.define name type value locked).run store = (.ok (),later)) :
    ∃ fitted, value.cast store type = .ok fitted ∧
      later = scope.put store name { name, type, value := fitted, locked } := by
  simp only [define,Action.run_bind,Action.run_read,Variable.create] at defined
  cases fits : value.cast store type with
  | error cause => simp [fits] at defined
  | ok fitted =>
    simp only [fits,defineVariable,Action.run_bind,Action.run_get] at defined
    split at defined
    · simp at defined
    · simp only [Action.run_modify,Prod.mk.injEq,true_and] at defined
      exact ⟨fitted,rfl,defined.symm⟩

end Scope

/-- Variables in a tree of scopes. A scope sees a name exactly if it finds a variable under it, and
exactly if an assignment to it does not fail for want of one. An assignment that succeeds gives the
variable that the scope finds the value cast to its type; every scope that finds the same one sees
it so, and otherwise no scope sees a change under any name. A definition that succeeds shows its
variable, under its name, to every scope from which the place is reached past no other of the name,
and otherwise no scope sees a change. -/
theorem scope_access_laws (store : Store β) {s : Scope} (present : s.index < store.frames.size)
    (n : String) (v : Value) :
    ((s.sees store n = true ↔ ∃ u, s.lookupVariable store n = .ok u) ∧
      (s.sees store n = true ↔
        ∀ e, ((s.assign n v).run store).1 = .error e → e.isNotFound = false)) ∧
    (∀ later, (s.assign n v).run store = (.ok (),later) →
      ∃ owner u fitted, s.Finds store n owner u ∧ v.cast store u.type = .ok fitted ∧
        ∀ (t : Scope) (m : String),
          (m = n ∧ t.Finds store n owner u → t.lookupVariable store m = .ok u ∧
            t.lookupVariable later m = .ok { u with value := fitted }) ∧
          (¬(m = n ∧ t.Finds store n owner u) →
            t.lookupVariable later m = t.lookupVariable store m)) ∧
    ∀ type locked later, (s.define n type v locked).run store = (.ok (),later) →
      ∃ fitted, v.cast store type = .ok fitted ∧
        ∀ (t : Scope) (m : String),
          (m = n ∧ t.Reaches store n s →
            t.lookupVariable later m = .ok { name := n, type, value := fitted, locked }) ∧
          (¬(m = n ∧ t.Reaches store n s) →
            t.lookupVariable later m = t.lookupVariable store m) := by
  refine ⟨⟨Scope.sees_iff_exists_lookupVariable,Scope.sees_iff_assign v⟩,?_,?_⟩
  · intro later set
    obtain ⟨owner,u,fitted,finds,fits,rfl⟩ := Scope.eq_put_of_assign set
    refine ⟨owner,u,fitted,finds,fits,fun t m => ?_⟩
    obtain ⟨shown,spared⟩ := Scope.lookupVariable_put (Scope.lt_size_of_get? finds.held) n m
      { u with value := fitted } t
    refine ⟨?_,fun apart => spared fun ⟨same,reaches⟩ => apart ⟨same,reaches,finds.held⟩⟩
    rintro ⟨rfl,found⟩
    exact ⟨found.lookupVariable,shown ⟨rfl,found.reaches⟩⟩
  · intro type locked later defined
    obtain ⟨fitted,fits,rfl⟩ := Scope.eq_put_of_define defined
    exact ⟨fitted,fits,fun t m => Scope.lookupVariable_put present n m _ t⟩

/-! A variable in the global scope, another one of its name in a scope inside, with a scope inside
that, and a scope beside them. -/
namespace Nest

def inner : Scope := ⟨1⟩

def innermost : Scope := ⟨2⟩

def beside : Scope := ⟨3⟩

def outerX : Variable := { name := "X", type := .integer, value := .integer 1 }

def innerX : Variable := { name := "X", type := .string, value := .string "one" }

def moves : List (Move Unit) :=
  [.ask Runtime.first.globalContext (.defineVariable outerX),.enter Runtime.first.global,
    .ask { runtime := .first, scope := inner } (.defineVariable innerX),.enter inner,
    .enter Runtime.first.global]

def store : Store Unit := (World.first.play .idle moves).store

def assigned : Store Unit := ((beside.assign "X" (.string "2")).run store).2

def defined : Store Unit := ((inner.define "Y" .boolean (.integer 7) true).run store).2

end Nest

/-- The assignment is cast, goes to the outer variable and leaves the innermost scope with the inner
one. The definition is seen from the innermost scope and not from beside. -/
theorem scope_access_laws_nest :
    Nest.beside.lookupVariable Nest.assigned "X" =
      .ok { Nest.outerX with value := .integer 2 } ∧
    Nest.innermost.lookupVariable Nest.assigned "X" = .ok Nest.innerX ∧
    Nest.innermost.lookupVariable Nest.defined "Y" =
      .ok { name := "Y", type := .boolean, value := .boolean true, locked := true } ∧
    Nest.beside.lookupVariable Nest.defined "Y" = .error (.notFound .scopeVariable "Y") := by
  obtain ⟨_,assigns,_⟩ :=
    scope_access_laws Nest.store (s := Nest.beside) (by decide) "X" (.string "2")
  obtain ⟨_,_,defines⟩ :=
    scope_access_laws Nest.store (s := Nest.inner) (by decide) "Y" (.integer 7)
  obtain ⟨owner,u,fitted,finds,fits,views⟩ := assigns Nest.assigned rfl
  obtain rfl : Runtime.first.global = owner := Option.some.inj (rfl.trans finds.owner?)
  obtain rfl : Nest.outerX = u := Option.some.inj (rfl.trans finds.held)
  obtain rfl : Value.integer 2 = fitted := Except.ok.inj (rfl.trans fits)
  obtain ⟨fitted,fits,also⟩ := defines .boolean true Nest.defined rfl
  obtain rfl : Value.boolean true = fitted := Except.ok.inj (rfl.trans fits)
  refine ⟨((views Nest.beside "X").1 ⟨rfl,finds⟩).2,?_,?_,?_⟩
  · refine ((views Nest.innermost "X").2 fun ⟨_,found⟩ => ?_).trans rfl
    exact absurd found.owner? (by decide)
  · exact (also Nest.innermost "Y").1 ⟨rfl,[Nest.innermost],_,rfl,by decide⟩
  · refine ((also Nest.beside "Y").2 fun ⟨_,near,far,split,_⟩ => ?_).trans rfl
    have member : Nest.inner ∈ Nest.store.chain Nest.beside := by simp [split]
    exact absurd member (by decide)

end ObjectModel
