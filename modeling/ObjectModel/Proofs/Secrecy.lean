import ObjectModel.Proofs.MemberAccess

/-! Hidden members are no channel between callers. Masking takes the values of the hidden members
out of all objects of a class. Whoever is not that class gets the same answers from a masked world,
and what the access does to the world it does to the masked one. So two worlds that are the same
once masked cannot be told apart, however long one goes on. -/
namespace ObjectModel

variable {α γ β σ : Type}

namespace Table

def map (f : α → γ) (t : Table α) : Table γ := ⟨t.entries.map fun entry => (entry.1,f entry.2)⟩

@[simp] theorem names_map (f : α → γ) (t : Table α) : (t.map f).names = t.names := by
  simp [map,names]

@[simp] theorem get?_map (f : α → γ) (t : Table α) (name : String) :
    (t.map f).get? name = (t.get? name).map f := by
  obtain ⟨entries⟩ := t
  change lookup name (entries.map fun entry => (entry.1,f entry.2)) = (lookup name entries).map f
  induction entries with
  | nil => rfl
  | cons entry rest ih =>
    obtain ⟨key,value⟩ := entry
    by_cases same : key = name <;> simp [lookup,same,ih]

theorem map_insert (f : α → γ) (t : Table α) (name : String) (value : α) :
    (t.insert name value).map f = (t.map f).insert name (f value) := by
  obtain ⟨entries⟩ := t
  refine congrArg mk ?_
  change (put name value entries).map (fun entry => (entry.1,f entry.2)) =
    put name (f value) (entries.map fun entry => (entry.1,f entry.2))
  induction entries with
  | nil => rfl
  | cons entry rest ih =>
    obtain ⟨key,old⟩ := entry
    by_cases same : key = name <;> simp [put,same,ih]

end Table

namespace Arena

def map (f : α → γ) (a : Arena α) : Arena γ := ⟨(a.cells.toList.map f).toArray⟩

theorem get_map [Inhabited α] {f : α → α} (blank : f default = default) (a : Arena α)
    (index : Nat) : (a.map f).get index = f (a.get index) := by
  simp only [get,map,Array.getD_eq_getD_getElem?,List.getElem?_toArray,List.getElem?_map,
    Array.getElem?_toList]
  cases a.cells[index]? <;> simp [blank]

theorem map_modify [Inhabited α] {f g : α → α} {a : Arena α} {index : Nat}
    (swap : f (g (a.get index)) = g (f (a.get index))) :
    (a.modify index f).map g = (a.map g).modify index f := by
  refine congrArg mk (Array.ext_getElem? fun i => ?_)
  simp only [modify,map,List.getElem?_toArray,List.getElem?_map,Array.getElem?_toList,
    Array.getElem?_modify]
  by_cases here : index = i
  · subst here
    cases cell : a.cells[index]? with
    | none => simp
    | some it =>
      have here : a.get index = it := by simp [get,cell]
      rw [here] at swap
      simp [swap]
  · simp [here]

end Arena

def Variable.mask (v : Variable) : Variable :=
  match v.visibility with
  | .shown => v
  | .hidden => { v with value := .nothing }

def Instance.mask (c : ClassId) (it : Instance) : Instance :=
  { it with members := if it.definition = c then it.members.map Variable.mask else it.members }

/-- The store without the values of the hidden members of the instances of a class. -/
def Store.mask (c : ClassId) (store : Store β) : Store β :=
  { store with instances := store.instances.map (Instance.mask c) }

def World.mask (c : ClassId) (w : World β σ) : World β σ := { w with store := w.store.mask c }

theorem Variable.mask_of_shown {v : Variable} (shown : v.visibility = .shown) : v.mask = v := by
  simp only [mask,shown]

theorem Instance.mask_insert {c : ClassId} {it : Instance} {v : Variable}
    (shown : it.definition = c → v.visibility = .shown) (name : String) :
    Instance.mask c { it with members := it.members.insert name v } =
      { it.mask c with members := (it.mask c).members.insert name v } := by
  simp only [mask]
  by_cases own : it.definition = c
  · rw [if_pos own,if_pos own,Table.map_insert,Variable.mask_of_shown (shown own)]
  · rw [if_neg own,if_neg own]

namespace Store

variable (c : ClassId) (store : Store β)

@[simp] theorem object_mask (o : Object) : (store.mask c).object o = (store.object o).mask c := by
  have blank : Instance.mask c default = default := by
    simp only [Instance.mask]
    split <;> rfl
  exact Arena.get_map blank store.instances o.index

@[simp] theorem definitionOf_mask (o : Object) :
    (store.mask c).definitionOf o = store.definitionOf o := by
  rw [definitionOf,object_mask]
  rfl

theorem memberNames_mask (o : Object) : o.memberNames (store.mask c) = o.memberNames store := by
  simp only [Object.memberNames,object_mask,Instance.mask]
  split <;> simp

@[simp] theorem isInstanceOf_mask (o : Object) (name : String) :
    o.isInstanceOf (store.mask c) name = o.isInstanceOf store name := by
  simp only [Object.isInstanceOf,object_mask]
  rfl

@[simp] theorem cast_mask (value : Value) (type : TypeName) :
    value.cast (store.mask c) type = value.cast store type := by
  cases value with
  | object o => cases type <;> simp [Value.cast,Value.castObject,Value.text]
  | _ => rfl

theorem assign_mask (v : Variable) (value : Value) :
    v.assign (store.mask c) value = v.assign store value := by
  simp only [Variable.assign,Variable.prepare,cast_mask]

end Store

namespace Object

variable {c : ClassId} {store : Store β} {o : Object} {name : String} {caller : Caller}

/-- A member that another caller finds is the same with or without the mask, as is a refusal. -/
theorem member_mask (other : caller ≠ (store.classOf c).identity) :
    o.member (store.mask c) name caller = o.member store name caller := by
  simp only [member,Store.definitionOf_mask,Store.object_mask,Instance.mask]
  by_cases own : (store.object o).definition = c
  · have refused : caller.is (store.definitionOf o).qualifiedName = false := by
      rw [Store.definitionOf,own]
      simpa [Caller.is,Class.identity] using other
    rw [if_pos own,Table.get?_map]
    cases (store.object o).members.get? name with
    | none => rfl
    | some v => cases seen : v.visibility <;> simp [Variable.isShown,Variable.mask,seen,refused]
  · rw [if_neg own]

theorem putMember_mask {place : Place} {v : Variable} {value : Value}
    (other : caller ≠ (store.classOf c).identity)
    (found : o.member store name caller = .ok (place,v)) :
    o.putMember name { v with value } (store.mask c) place =
      (o.putMember name { v with value } store place).mask c := by
  cases place with
  | own =>
    obtain ⟨_,allowed⟩ := member_eq_own_iff.mp found
    refine congrArg (fun instances => { store with instances }) (Arena.map_modify ?_).symm
    refine (Instance.mask_insert (fun own => ?_) name).symm
    -- In an instance of the class another caller finds none but shown members.
    have own : (store.object o).definition = c := own
    refine allowed.resolve_right fun same => other ?_
    rw [same,Store.definitionOf,own]
  | shared =>
    simp only [putMember,Store.object_mask]
    rfl

theorem qualifiedName_setMember (value : Value) (d : ClassId) :
    (((o.setMember name value caller).run store).2.classOf d).qualifiedName =
      (store.classOf d).qualifiedName := by
  rcases set : (o.setMember name value caller).run store with ⟨result,later⟩
  cases result with
  | error e =>
    have kept := atomic_setMember o name value caller store e (by rw [set])
    rw [set] at kept
    rw [kept]
  | ok _ =>
    obtain ⟨place,v,fitted,found,_,rfl⟩ := eq_putMember_of_setMember set
    exact (takes_putMember (get?_of_member found) fitted).qualifiedName d

theorem setMember_mask (value : Value) (other : caller ≠ (store.classOf c).identity) :
    (o.setMember name value caller).run (store.mask c) =
      Prod.map id (Store.mask c) ((o.setMember name value caller).run store) := by
  rw [run_setMember,run_setMember,member_mask other]
  rcases found : o.member store name caller with cause | ⟨place,v⟩
  · rfl
  · simp only [Store.assign_mask]
    cases assigned : v.assign store value with
    | error cause => rfl
    | ok next =>
      obtain ⟨_,fitted,_,rfl⟩ := Variable.assign_eq_ok_iff.mp assigned
      simp only [putMember_mask other found]
      rfl

theorem run_dispatch (supply : Resolution.Supply β σ) (w : World β σ) :
    (o.dispatch supply name caller).run w =
      (World.onHost (Resolution.settle supply name caller (Resolution.search (w.store.definitionOf o)
        (Resolution.visibleAncestors w.store (w.store.object o).scope (w.store.object o).hierarchy)
        name caller))).run w := rfl

/-- Dispatch goes by the class, the scope and the hierarchy, and these are not masked. -/
theorem dispatch_mask (supply : Resolution.Supply β σ) (w : World β σ) :
    (o.dispatch supply name caller).run (w.mask c) =
      Prod.map id (World.mask c) ((o.dispatch supply name caller).run w) := by
  simp only [run_dispatch,World.mask,Store.definitionOf_mask,Store.object_mask]
  rfl

end Object

theorem Action.run_map {S : Type} (f : α → γ) (a : Action S α) (s : S) :
    (f <$> a).run s = Prod.map (Except.map f) id (a.run s) := by
  change (a >>= fun x => pure (f x)).run s = _
  rw [Action.run_bind]
  rcases a.run s with ⟨_ | x,later⟩ <;> rfl

namespace World

variable {c : ClassId} {w : World β σ}

theorem onStore_mask {a : Action (Store β) α}
    (same : a.run (w.store.mask c) = Prod.map id (Store.mask c) (a.run w.store)) :
    (onStore a).run (w.mask c) = Prod.map id (World.mask c) ((onStore a).run w) := by
  simp only [run_onStore,mask,same]
  rfl

theorem map_mask {a : Action (World β σ) α} {f : α → γ}
    (same : a.run (w.mask c) = Prod.map id (World.mask c) (a.run w)) :
    (f <$> a).run (w.mask c) = Prod.map id (World.mask c) ((f <$> a).run w) := by
  rw [Action.run_map,Action.run_map,same]
  rfl

end World

inductive Access where
  | get (o : Object) (name : String) (caller : Caller)
  | set (o : Object) (name : String) (value : Value) (caller : Caller)
  | names (o : Object)
  | belongs (o : Object) (className : String)
  | dispatch (o : Object) (name : String) (caller : Caller)

inductive Access.Reply (β : Type) where
  | value (v : Value)
  | done
  | names (names : List String)
  | truth (b : Bool)
  | method (f : Function β)

namespace Access

def caller? : Access → Option Caller
  | .get _ _ caller | .set _ _ _ caller | .dispatch _ _ caller => some caller
  | .names _ | .belongs _ _ => none

def perform (host : Host β σ) : Access → Action (World β σ) (Reply β)
  | .get o name caller => .value <$> World.onStore (.read (o.getMember · name caller))
  | .set o name value caller =>
    (fun _ => .done) <$> World.onStore (o.setMember name value caller)
  | .names o => .names <$> World.onStore (.read (.ok <| o.memberNames ·))
  | .belongs o className => .truth <$> World.onStore (.read (.ok <| o.isInstanceOf · className))
  | .dispatch o name caller => .method <$> o.dispatch host.supply name caller

variable {host : Host β σ} {a : Access} {c : ClassId} {w : World β σ}

/-- An access by another caller gives the same in the masked world, and leaves it as the mask of
what it leaves. -/
theorem perform_mask (other : a.caller? ≠ some (w.store.classOf c).identity) :
    (a.perform host).run (w.mask c) =
      Prod.map id (World.mask c) ((a.perform host).run w) := by
  have apart : ∀ caller, a.caller? = some caller → caller ≠ (w.store.classOf c).identity := by
    rintro caller asked rfl
    exact other asked
  cases a with
  | get o name caller =>
    refine World.map_mask (World.onStore_mask ?_)
    simp [Object.getMember,Object.member_mask (apart caller rfl)]
  | set o name value caller =>
    refine World.map_mask (World.onStore_mask ?_)
    exact Object.setMember_mask value (apart caller rfl)
  | names o =>
    refine World.map_mask (World.onStore_mask ?_)
    simp [Store.memberNames_mask]
  | belongs o className =>
    refine World.map_mask (World.onStore_mask ?_)
    simp
  | dispatch o name caller => exact World.map_mask (Object.dispatch_mask host.supply w)

theorem identity_perform (host : Host β σ) (a : Access) :
    (((a.perform host).run w).2.store.classOf c).identity = (w.store.classOf c).identity := by
  cases a with
  | set o name value caller =>
    simp only [perform,Action.run_map,World.run_onStore,Class.identity]
    exact congrArg Caller.member (Object.qualifiedName_setMember value c)
  | get | names | belongs | dispatch =>
    rw [perform,Action.run_map]
    rfl

end Access

def World.serve (host : Host β σ) (w : World β σ) :
    List Access → List (Except Error (Access.Reply β)) × World β σ
  | [] => ([],w)
  | a :: rest =>
    let (answer,later) := (a.perform host).run w
    let (answers,last) := later.serve host rest
    (answer :: answers,last)

theorem World.serve_mask {host : Host β σ} {w : World β σ} {c : ClassId} {accesses : List Access}
    (others : ∀ a ∈ accesses, a.caller? ≠ some (w.store.classOf c).identity) :
    (w.mask c).serve host accesses = Prod.map id (World.mask c) (w.serve host accesses) := by
  induction accesses generalizing w with
  | nil => rfl
  | cons a rest ih =>
    obtain ⟨other,others⟩ := List.forall_mem_cons.mp others
    -- The class keeps its name, so the callers that are left are others after the access as well.
    rw [← Access.identity_perform host a] at others
    simp only [serve,Access.perform_mask other,Prod.map_fst,Prod.map_snd,ih others,id]
    rfl

/-- Two worlds that differ in nothing but the values of hidden members of instances of a class give
the same answers to each of a series of accesses by other callers, refusals included, and differ in
no more than that after them. -/
theorem hidden_values_do_not_flow {host : Host β σ} {first second : World β σ} {c : ClassId}
    (alike : first.mask c = second.mask c) {accesses : List Access}
    (others : ∀ a ∈ accesses, a.caller? ≠ some (first.store.classOf c).identity) :
    (first.serve host accesses).1 = (second.serve host accesses).1 ∧
      (first.serve host accesses).2.mask c = (second.serve host accesses).2.mask c := by
  have classes : (first.mask c).store.classes = (second.mask c).store.classes := by rw [alike]
  have named : first.store.classOf c = second.store.classOf c := congrArg (·.get c.index) classes
  have same : Prod.map id (World.mask c) (first.serve host accesses) =
      Prod.map id (World.mask c) (second.serve host accesses) :=
    calc
      _ = (first.mask c).serve host accesses := (World.serve_mask others).symm
      _ = (second.mask c).serve host accesses := by rw [alike]
      _ = _ := World.serve_mask (named ▸ others)
  exact Prod.mk.inj same

/-! An object with a hidden member, which its class has given one value or another. -/
namespace Vault

def keeper : Class Unit :=
  let shown := Class.declareVariable { name := "C", modulePath := "m" } (.dynamic "X" (.integer 0))
  let hidden := shown.declareVariable (Variable.hide (.dynamic "P" (.integer 0)))
  hidden.declareFunction { name := "F", body := .native () } .shown

def ctx : Context := Runtime.first.globalContext

def moves (secret : Int64) : List (Move Unit) :=
  [.ask ctx (.defineClass keeper),.ask ctx (.instantiate ⟨0⟩),
    .ask ctx (.setMember ⟨0⟩ "P" (.integer secret) keeper.identity)]

def world (secret : Int64) : World Unit Unit := World.first.play .idle (moves secret)

theorem reached (secret : Int64) : World.Reaches .idle (fun _ _ => True) .first (world secret) :=
  World.Reaches.start.play ⟨trivial,trivial,trivial,trivial⟩

theorem mask_world (secret : Int64) : (world secret).mask ⟨0⟩ = (world 0).mask ⟨0⟩ := rfl

def accesses : List Access :=
  [.get ⟨0⟩ "P" .outside,.set ⟨0⟩ "P" (.integer 5) (.member "m.D"),
    .set ⟨0⟩ "X" (.integer 7) .outside,.get ⟨0⟩ "X" (.member "m.D"),.names ⟨0⟩,
    .belongs ⟨0⟩ "C",.dispatch ⟨0⟩ "F" .outside]

theorem others : ∀ a ∈ accesses, a.caller? ≠ some ((world 1).store.classOf ⟨0⟩).identity := by
  decide

end Vault

/-- The class itself reads one value or the other, and nobody else notices. -/
theorem hidden_values_do_not_flow_vault :
    (∀ secret, World.Reaches .idle (fun _ _ => True) .first (Vault.world secret)) ∧
    Object.getMember ⟨0⟩ (Vault.world 1).store "P" Vault.keeper.identity = .ok (.integer 1) ∧
    Object.getMember ⟨0⟩ (Vault.world 2).store "P" Vault.keeper.identity = .ok (.integer 2) ∧
    ((Vault.world 1).serve .idle Vault.accesses).1 =
      ((Vault.world 2).serve .idle Vault.accesses).1 ∧
    ((Vault.world 1).serve .idle Vault.accesses).2.mask ⟨0⟩ =
      ((Vault.world 2).serve .idle Vault.accesses).2.mask ⟨0⟩ :=
  ⟨Vault.reached,rfl,rfl,hidden_values_do_not_flow
    ((Vault.mask_world 1).trans (Vault.mask_world 2).symm) Vault.others⟩

end ObjectModel
