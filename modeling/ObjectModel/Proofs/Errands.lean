import ObjectModel.Proofs.Mirror

/-! Errands: single operations in a scope, each with its reply. An errand reads the store, and from
what it reads it has a reply and an effect: it opens a scope, puts a variable, a function or a class
into one, or does nothing. In scopes that are twins the same errand has the same reply and the same
effect. -/
namespace ObjectModel

variable {β : Type}

inductive Errand (β : Type) where
  | enter
  | define (name : String) (type : TypeName) (value : Value) (locked : Bool)
  | defineVariable (v : Variable)
  | getVariable (name : String)
  | assign (name : String) (value : Value)
  | defineFunction (f : Function β)
  | getFunction (name : String)
  | defineClass (c : Class β)
  | getClass (name : String)

inductive Reply (β : Type) where
  | nowhere
  | entered
  | done (r : Except Error Unit)
  | binding (r : Except Error Variable)
  | function (r : Except Error (Function β))
  | definition (r : Except Error ClassId)

namespace Reply

def rename (f : ClassId → ClassId) : Reply β → Reply β
  | .definition r => .definition (r.map f)
  | reply => reply

/-- Replies that differ at most in the identity of a class. -/
inductive Same (kin : ClassId → ClassId → Prop) : Reply β → Reply β → Prop where
  | definition {c d : ClassId} (related : kin c d) :
      Same kin (.definition (.ok c)) (.definition (.ok d))
  | plain {reply : Reply β} (apart : ∀ c, reply ≠ .definition (.ok c)) : Same kin reply reply

theorem Same.mono {kin kins : ClassId → ClassId → Prop} {first second : Reply β}
    (same : Same kin first second) (wider : ∀ c d, kin c d → kins c d) :
    Same kins first second := by
  cases same with
  | definition related => exact .definition (wider _ _ related)
  | plain apart => exact .plain apart

/-- Where each class has one kin, replies that are the same are renamed. -/
theorem Same.rename {kin : ClassId → ClassId → Prop} {f : ClassId → ClassId}
    {first second : Reply β} (same : Same kin first second)
    (named : ∀ c d, kin c d → d = f c) : second = first.rename f := by
  cases same with
  | definition related => rw [Reply.rename,Except.map,named _ _ related]
  | plain apart =>
    cases first with
    | definition r =>
      cases r with
      | ok c => exact absurd rfl (apart c)
      | error e => rfl
    | nowhere | entered | done | binding | function => rfl

theorem map_rename {kin : ClassId → ClassId → Prop} {f : ClassId → ClassId}
    {first second : List (Reply β)} (same : List.Forall₂ (Same kin) first second)
    (named : ∀ c d, kin c d → d = f c) : second = first.map (·.rename f) := by
  induction same with
  | nil => rfl
  | cons here _ ih => rw [List.map_cons,← ih,← here.rename named]

end Reply

namespace Errand

def answer {α : Type} (reply : Except Error α → Reply β) (outcome : Except Error α × Store β) :
    Reply β × List Scope × Store β :=
  (reply outcome.1,[],outcome.2)

/-- Does an errand in a scope: the reply, the scope that is opened if one is, and the store after
it. -/
def perform (scope : Scope) (store : Store β) : Errand β → Reply β × List Scope × Store β
  | .enter => (.entered,[(store.child scope).1],(store.child scope).2)
  | .define name type value locked =>
    answer .done ((scope.define name type value locked).run store)
  | .defineVariable v => answer .done ((scope.defineVariable v).run store)
  | .getVariable name => answer .binding (scope.lookupVariable store name,store)
  | .assign name value => answer .done ((scope.assign name value).run store)
  | .defineFunction f => answer .function ((scope.defineFunction f).run store)
  | .getFunction name => answer .function (scope.lookupFunction store name,store)
  | .defineClass c => answer .definition ((scope.defineClass c).run store)
  | .getClass name => answer .definition (scope.lookupClass store name,store)

/-- The classes of the objects that are handed over are there. -/
def Grounded (store : Store β) : Errand β → Prop
  | .define _ _ value _ | .assign _ value =>
    ∀ o, value = .object o → (store.object o).definition.index < store.classes.size
  | _ => True

end Errand

inductive Effect (β : Type) where
  | rest
  | enter
  | bind (owner : Scope) (name : String) (v : Variable)
  | install (f : Function β)
  | adopt (c : Class β)

namespace Effect

def apply (scope : Scope) (store : Store β) : Effect β → Store β
  | .rest => store
  | .enter => (store.child scope).2
  | .bind owner name v => store.modifyFrame owner fun frame =>
    { frame with bindings := frame.bindings.insert name v }
  | .install f => store.modifyFrame scope fun frame =>
    { frame with functions := frame.functions.insert f.name f }
  | .adopt c => scope.adopt store c

def opens (scope : Scope) (store : Store β) : Effect β → List Scope
  | .enter => [(store.child scope).1]
  | _ => []

def Touches (scope : Scope) : Effect β → Scope → Prop
  | .bind owner _ _, u => u = owner
  | .install _, u | .adopt _, u => u = scope
  | .rest, _ | .enter, _ => False

inductive Matches (twin : Scope → Scope → Prop) : Effect β → Effect β → Prop where
  | rest : Matches twin .rest .rest
  | enter : Matches twin .enter .enter
  | bind {s t : Scope} (twins : twin s t) (name : String) (v : Variable) :
      Matches twin (.bind s name v) (.bind t name v)
  | install (f : Function β) : Matches twin (.install f) (.install f)
  | adopt (c : Class β) : Matches twin (.adopt c) (.adopt c)

end Effect

def Scope.planVariable (scope : Scope) (store : Store β) (v : Variable) : Reply β × Effect β :=
  if scope.definesHere store v.name then
    (.done (.error (.alreadyExists .scopeVariable v.name)),.rest)
  else (.done (.ok ()),.bind scope v.name v)

namespace Errand

/-- The reply and the effect of an errand, read off the store. -/
def plan (scope : Scope) (store : Store β) : Errand β → Reply β × Effect β
  | .enter => (.entered,.enter)
  | .define name type value locked =>
    match Variable.create store name type value with
    | .error e => (.done (.error e),.rest)
    | .ok v => scope.planVariable store { v with locked }
  | .defineVariable v => scope.planVariable store v
  | .getVariable name => (.binding (scope.lookupVariable store name),.rest)
  | .assign name value =>
    match scope.owner? store name with
    | none => (.done (.error (.notFound .scopeVariable name)),.rest)
    | some owner =>
      match (store.frame owner).bindings.get? name with
      | none => (.done (.error (.notFound .scopeVariable name)),.rest)
      | some v =>
        match v.assign store value with
        | .error e => (.done (.error e),.rest)
        | .ok next => (.done (.ok ()),.bind owner name next)
  | .defineFunction f =>
    if (store.frame scope).functions.contains f.name then
      (.function (.error (.alreadyExists .scopeFunction f.name)),.rest)
    else (.function (.ok f),.install f)
  | .getFunction name => (.function (scope.lookupFunction store name),.rest)
  | .defineClass c =>
    match scope.classConflict? store c with
    | some e => (.definition (.error e),.rest)
    | none => (.definition (.ok (store.addClass c).1),.adopt c)
  | .getClass name => (.definition (scope.lookupClass store name),.rest)

theorem perform_defineVariable (scope : Scope) (store : Store β) (v : Variable) :
    answer .done ((scope.defineVariable v).run store) =
      ((scope.planVariable store v).1,(scope.planVariable store v).2.opens scope store,
        (scope.planVariable store v).2.apply scope store) := by
  simp only [Scope.defineVariable,Action.run_bind,Action.run_get,Scope.planVariable]
  split <;> rfl

/-- An errand does as planned. -/
theorem perform_eq (scope : Scope) (store : Store β) (errand : Errand β) :
    errand.perform scope store =
      ((errand.plan scope store).1,(errand.plan scope store).2.opens scope store,
        (errand.plan scope store).2.apply scope store) := by
  cases errand with
  | enter | getVariable | getFunction | getClass => rfl
  | define name type value locked =>
    simp only [perform,plan,Scope.define,Action.run_bind,Action.run_read]
    cases Variable.create store name type value with
    | error e => rfl
    | ok v => exact perform_defineVariable scope store _
  | defineVariable v => exact perform_defineVariable scope store v
  | assign name value =>
    simp only [perform,plan,Scope.assign,Action.run_bind,Action.run_get]
    cases scope.owner? store name with
    | none => rfl
    | some owner =>
      simp only
      cases (store.frame owner).bindings.get? name with
      | none => rfl
      | some v =>
        simp only [Action.run_bind,Action.run_ofExcept]
        cases v.assign store value <;> rfl
  | defineFunction f =>
    simp only [perform,plan,Scope.defineFunction,Action.run_bind,Action.run_get]
    split <;> rfl
  | defineClass c =>
    simp only [perform,plan,Scope.defineClass,Action.run_bind,Action.run_get]
    cases scope.classConflict? store c <;> rfl

/-- An errand writes into its own scope, or it assigns and writes into the nearest scope that has
the variable. -/
theorem touches {scope u : Scope} {store : Store β} {errand : Errand β}
    (touched : (errand.plan scope store).2.Touches scope u) :
    u = scope ∨ ∃ name value, errand = .assign name value ∧ scope.owner? store name = some u := by
  have defined : ∀ v, (scope.planVariable store v).2.Touches scope u → u = scope := by
    intro v touched
    unfold Scope.planVariable at touched
    split at touched
    · exact touched.elim
    · exact touched
  cases errand with
  | enter | getVariable | getFunction | getClass => exact touched.elim
  | define name type value locked =>
    simp only [plan] at touched
    split at touched
    · exact touched.elim
    · exact .inl (defined _ touched)
  | defineVariable v => exact .inl (defined v touched)
  | assign name value =>
    simp only [plan] at touched
    split at touched
    · exact touched.elim
    next owner owned =>
      split at touched
      · exact touched.elim
      · split at touched
        · exact touched.elim
        · exact .inr ⟨name,value,rfl,touched ▸ owned⟩
  | defineFunction f =>
    simp only [plan] at touched
    split at touched
    · exact touched.elim
    · exact .inl touched
  | defineClass c =>
    simp only [plan] at touched
    split at touched
    · exact touched.elim
    · exact .inl touched

/-- The classes of the objects that are handed over are kin to themselves. -/
def Knows (kin : ClassId → ClassId → Prop) (store : Store β) : Errand β → Prop
  | .define _ _ value _ | .assign _ value => Mirrors.Knows kin store value
  | _ => True

theorem Knows.mono {kin kins : ClassId → ClassId → Prop} {store later : Store β} {errand : Errand β}
    (knows : errand.Knows kin store) (wider : ∀ c d, kin c d → kins c d)
    (object : ∀ o, later.object o = store.object o) : errand.Knows kins later := by
  have value : ∀ v, Mirrors.Knows kin store v → Mirrors.Knows kins later v := by
    intro v knows o same
    rw [object]
    exact wider _ _ (knows o same)
  cases errand with
  | define _ _ v | assign _ v => exact value v knows
  | _ => trivial

end Errand

namespace Effect

/-- The twins after an effect on a scope and its twin. -/
def pairs (e : Effect β) (s t : Scope) (store other : Store β) (twin : Scope → Scope → Prop) :
    Scope → Scope → Prop :=
  match e with
  | .enter => fun u v => twin u v ∨ u = (store.child s).1 ∧ v = (other.child t).1
  | _ => twin

/-- The classes that are kin after an effect on both stores. -/
def relates (e : Effect β) (store other : Store β) (kin : ClassId → ClassId → Prop) :
    ClassId → ClassId → Prop :=
  match e with
  | .adopt c => fun d e => kin d e ∨ d = (store.addClass c).1 ∧ e = (other.addClass c).1
  | _ => kin

theorem pairs_of_twin (e : Effect β) {s t u v : Scope} {store other : Store β}
    {twin : Scope → Scope → Prop} (twins : twin u v) : e.pairs s t store other twin u v := by
  cases e with
  | enter => exact .inl twins
  | rest | bind | install | adopt => exact twins

theorem relates_of_kin (e : Effect β) {c d : ClassId} {store other : Store β}
    {kin : ClassId → ClassId → Prop} (related : kin c d) : e.relates store other kin c d := by
  cases e with
  | adopt => exact .inl related
  | rest | enter | bind | install => exact related

theorem labelled (e : Effect β) (scope : Scope) {store : Store β} (labelled : store.Labelled) :
    (e.apply scope store).Labelled := by
  have written : ∀ (home : Scope) (f : Frame β → Frame β),
      (∀ frame, (f frame).classes = frame.classes) → (store.modifyFrame home f).Labelled := by
    intro home f table
    refine labelled.transfer (fun u => .inl ?_) fun c present => ⟨present,rfl,rfl⟩
    rcases store.frame_modifyFrame_cases home u f with same | ⟨_,same⟩ <;> rw [same]
    exact table _
  cases e with
  | rest => exact labelled
  | enter =>
    refine labelled.transfer (fun u => .inl ?_) fun c present => ⟨present,rfl,rfl⟩
    exact Scope.classes_child scope u
  | bind owner => exact written owner _ fun _ => rfl
  | install => exact written scope _ fun _ => rfl
  | adopt c => exact labelled.adopt scope c

theorem frame_apply (e : Effect β) {scope u : Scope} {store : Store β}
    (opened : u.index < store.frames.size) (spared : ¬e.Touches scope u) :
    (e.apply scope store).frame u = store.frame u := by
  cases e with
  | rest => rfl
  | enter => exact Store.frame_child_of_ne (Nat.ne_of_lt opened) scope
  | bind | install => exact Store.frame_modifyFrame_of_ne spared store _
  | adopt c => exact Scope.frame_adopt_of_ne spared c

theorem enclosing_apply (e : Effect β) {scope u : Scope} {store : Store β}
    (opened : u.index < store.frames.size) :
    ((e.apply scope store).frame u).enclosing = (store.frame u).enclosing := by
  cases e with
  | rest => rfl
  | enter => rw [apply,Store.frame_child_of_ne (Nat.ne_of_lt opened) scope]
  | bind owner =>
    rcases store.frame_modifyFrame_cases owner u _ with same | ⟨_,same⟩ <;> rw [apply,same]
  | install =>
    rcases store.frame_modifyFrame_cases scope u _ with same | ⟨_,same⟩ <;> rw [apply,same]
  | adopt c => exact (scope.frame_adopt store c u).1

theorem frames_le_apply (e : Effect β) (scope : Scope) (store : Store β) :
    store.frames.size ≤ (e.apply scope store).frames.size := by
  cases e with
  | rest => exact Nat.le_refl _
  | enter => simp [apply,Store.child,Store.addFrame]
  | bind | install => simp [apply,Store.modifyFrame]
  | adopt c => exact Nat.le_of_eq (scope.frames_adopt store c).symm

theorem classes_le_apply (e : Effect β) (scope : Scope) (store : Store β) :
    store.classes.size ≤ (e.apply scope store).classes.size := by
  cases e with
  | rest | enter | bind | install => exact Nat.le_refl _
  | adopt c =>
    rw [apply,scope.size_adopt]
    exact Nat.le_succ _

theorem classOf_apply (e : Effect β) (scope : Scope) {store : Store β} {c : ClassId}
    (allotted : c.index < store.classes.size) :
    (e.apply scope store).classOf c = store.classOf c := by
  cases e with
  | rest | enter | bind | install => rfl
  | adopt => exact Scope.classOf_adopt_of_lt allotted _

theorem object_apply (e : Effect β) (scope : Scope) (store : Store β) (o : Object) :
    (e.apply scope store).object o = store.object o := by
  cases e <;> rfl

theorem Matches.opens {e f : Effect β} {s t : Scope} {store other : Store β}
    {twin : Scope → Scope → Prop} (matched : e.Matches twin f) :
    List.Forall₂ (e.pairs s t store other twin) (e.opens s store) (f.opens t other) := by
  cases matched with
  | enter => exact .cons (.inr ⟨rfl,rfl⟩) .nil
  | rest | bind | install | adopt => exact .nil

theorem Matches.twin_or_opened {e f : Effect β} {s t u v : Scope} {store other : Store β}
    {twin : Scope → Scope → Prop} (matched : e.Matches twin f)
    (pair : e.pairs s t store other twin u v) : twin u v ∨ v ∈ f.opens t other := by
  cases matched with
  | enter =>
    rcases pair with old | ⟨_,rfl⟩
    · exact .inl old
    · exact .inr List.mem_cons_self
  | rest | bind | install | adopt => exact .inl pair

theorem exists_relates (e : Effect β) (scope : Scope) {store : Store β} (other : Store β)
    {kin : ClassId → ClassId → Prop}
    (total : ∀ c : ClassId, c.index < store.classes.size → ∃ d, kin c d) (c : ClassId)
    (allotted : c.index < (e.apply scope store).classes.size) :
    ∃ d, e.relates store other kin c d := by
  cases e with
  | adopt new =>
    rw [apply,scope.size_adopt] at allotted
    rcases Nat.lt_succ_iff_lt_or_eq.mp allotted with old | last
    · obtain ⟨d,related⟩ := total c old
      exact ⟨d,.inl related⟩
    · exact ⟨_,.inr ⟨congrArg ClassId.mk last,rfl⟩⟩
  | rest | enter | bind | install => exact total c allotted

end Effect

namespace Mirrors

variable {twin : Scope → Scope → Prop} {kin : ClassId → ClassId → Prop} {store other : Store β}
  {s t : Scope}

theorem apply {e f : Effect β} (mirrors : Mirrors twin kin store other) (twins : twin s t)
    (matched : e.Matches twin f) :
    Mirrors (e.pairs s t store other twin) (e.relates store other kin) (e.apply s store)
      (f.apply t other) := by
  cases matched with
  | rest => exact mirrors
  | enter => exact mirrors.enter twins
  | bind owners name v =>
    refine mirrors.write owners (fun _ => rfl) (fun _ => rfl) fun a b bindings functions => ?_
    exact ⟨by rw [bindings],functions⟩
  | install f =>
    refine mirrors.write twins (fun _ => rfl) (fun _ => rfl) fun a b bindings functions => ?_
    exact ⟨bindings,by rw [functions]⟩
  | adopt c => exact mirrors.adopt twins c

theorem planVariable (mirrors : Mirrors twin kin store other) (twins : twin s t) (v : Variable) :
    (s.planVariable store v).2.Matches twin (t.planVariable other v).2 ∧
      Reply.Same ((s.planVariable store v).2.relates store other kin) (s.planVariable store v).1
        (t.planVariable other v).1 := by
  simp only [Scope.planVariable,mirrors.definesHere twins]
  split
  · exact ⟨.rest,.plain nofun⟩
  · exact ⟨.bind twins _ _,.plain nofun⟩

/-- An errand in twins has the same reply and the same effect. -/
theorem plan {errand : Errand β} (mirrors : Mirrors twin kin store other)
    (labelled : store.Labelled) (also : other.Labelled) (twins : twin s t)
    (knows : errand.Knows kin store) :
    (errand.plan s store).2.Matches twin (errand.plan t other).2 ∧
      Reply.Same ((errand.plan s store).2.relates store other kin) (errand.plan s store).1
        (errand.plan t other).1 := by
  cases errand with
  | enter => exact ⟨.enter,.plain nofun⟩
  | define name type value locked =>
    simp only [Errand.plan,mirrors.create labelled also knows]
    cases Variable.create store name type value with
    | error e => exact ⟨.rest,.plain nofun⟩
    | ok v => exact mirrors.planVariable twins _
  | defineVariable v => exact mirrors.planVariable twins v
  | getVariable name =>
    rw [Errand.plan,Errand.plan,mirrors.lookupVariable twins]
    exact ⟨.rest,.plain nofun⟩
  | assign name value =>
    rcases eq_none_or_eq_some_of_rel (mirrors.owner? twins name) with
      ⟨left,right⟩ | ⟨owner,mate,owners,left,right⟩
    · simp only [Errand.plan,left,right]
      exact ⟨.rest,.plain nofun⟩
    · simp only [Errand.plan,left,right,mirrors.bindings owners]
      cases (store.frame owner).bindings.get? name with
      | none => exact ⟨.rest,.plain nofun⟩
      | some v =>
        simp only [mirrors.assign labelled also knows]
        cases v.assign store value with
        | error e => exact ⟨.rest,.plain nofun⟩
        | ok next => exact ⟨.bind owners _ _,.plain nofun⟩
  | defineFunction f =>
    simp only [Errand.plan,mirrors.functions twins]
    split
    · exact ⟨.rest,.plain nofun⟩
    · exact ⟨.install f,.plain nofun⟩
  | getFunction name =>
    rw [Errand.plan,Errand.plan,mirrors.lookupFunction twins]
    exact ⟨.rest,.plain nofun⟩
  | defineClass c =>
    simp only [Errand.plan,mirrors.classConflict? twins]
    cases s.classConflict? store c with
    | some e => exact ⟨.rest,.plain nofun⟩
    | none => exact ⟨.adopt c,.definition (.inr ⟨rfl,rfl⟩)⟩
  | getClass name =>
    rw [Errand.plan,Errand.plan]
    rcases mirrors.lookupClass twins name with ⟨e,left,right⟩ | ⟨c,d,related,left,right⟩ <;>
      rw [left,right]
    · exact ⟨.rest,.plain nofun⟩
    · exact ⟨.rest,.definition related⟩

end Mirrors

end ObjectModel
