import ObjectModel.Proofs.Invocation
import ObjectModel.Proofs.Shadowing

/-! Arguments on their way to a body. They are bound, each fixed one by a cast to the type of its
parameter, and the variables of an interpreted body are then defined by a second cast to the same
type. What a cast gives casts to itself, also in the store that has the new scope and the variables
defined so far, so the second cast changes nothing and never fails; and the body finds the
parameters, with the values that were bound, and nothing else in its scope. -/
namespace ObjectModel

variable {β σ : Type} {store later : Store β} {scope home : Scope}

/-! Binding. -/

namespace Function

variable {f : Function β} {parameters : List Parameter} {arguments bound : List Value} {e : Error}

/-- Each argument that has a parameter casts to its type. -/
def Suits (store : Store β) (parameters : List Parameter) (arguments : List Value) : Prop :=
  ∀ (i : Nat) (p : Parameter) (v : Value), parameters[i]? = some p → arguments[i]? = some v →
    ∃ u, v.cast store p.type = .ok u

/-- The arguments with those that have a parameter cast to its type, and the others as they are. -/
structure Binds (store : Store β) (parameters : List Parameter) (arguments bound : List Value) :
    Prop where
  length : bound.length = arguments.length
  fixed : ∀ (i : Nat) (p : Parameter) (v : Value), parameters[i]? = some p →
    arguments[i]? = some v → ∃ u, v.cast store p.type = .ok u ∧ bound[i]? = some u
  rest : ∀ i : Nat, parameters.length ≤ i → bound[i]? = arguments[i]?

/-- The failure is that of the first argument that does not cast, and says which one it was. -/
def Misfits (f : Function β) (store : Store β) (parameters : List Parameter)
    (arguments : List Value) (e : Error) : Prop :=
  ∃ (i : Nat) (p : Parameter) (v : Value) (source target : String) (notes : List CastNote),
    parameters[i]? = some p ∧ arguments[i]? = some v ∧
    v.cast store p.type = .error (.cast source target notes) ∧
    e = .cast source target (.argument p.name f.name :: notes) ∧
    ∀ j < i, ∀ (q : Parameter) (u : Value), parameters[j]? = some q → arguments[j]? = some u →
      ∃ t, u.cast store q.type = .ok t

theorem binds_of_bindFixed (success : f.bindFixed store parameters arguments = .ok bound) :
    Binds store parameters arguments bound := by
  fun_induction bindFixed store f parameters arguments generalizing bound with
  | case1 parameters =>
    obtain rfl := Except.ok.inj success
    exact ⟨rfl,fun i p v _ given => by simp at given,fun _ _ => rfl⟩
  | case2 rest =>
    obtain rfl := Except.ok.inj success
    exact ⟨rfl,fun i p v declared => by simp at declared,fun _ _ => rfl⟩
  | case3 p parameters value rest e failed => contradiction
  | case4 p parameters value rest first cast e failed ih => contradiction
  | case5 p parameters value rest first cast values others ih =>
    obtain rfl := Except.ok.inj success
    obtain ⟨length,fixed,later⟩ := ih others
    refine ⟨by simp [length],fun i q v declared given => ?_,fun i behind => ?_⟩
    · cases i with
      | zero =>
        obtain rfl : p = q := by simpa using declared
        obtain rfl : value = v := by simpa using given
        exact ⟨first,cast,rfl⟩
      | succ i => simpa using fixed i q v (by simpa using declared) (by simpa using given)
    · cases i with
      | zero => simp at behind
      | succ i => simpa using later i (by simpa using behind)

theorem misfits_of_bindFixed (failure : f.bindFixed store parameters arguments = .error e) :
    f.Misfits store parameters arguments e := by
  fun_induction bindFixed store f parameters arguments with
  | case1 parameters => contradiction
  | case2 rest => contradiction
  | case3 p parameters value rest cause failed =>
    obtain rfl := Except.error.inj failure
    have kind := Value.isCast_of_cast failed
    cases cause with
    | cast source target notes =>
      exact ⟨0,p,value,source,target,notes,rfl,rfl,failed,rfl,fun j before => by simp at before⟩
    | _ => simp [Error.isCast] at kind
  | case4 p parameters value rest first cast cause failed ih =>
    obtain rfl := Except.error.inj failure
    obtain ⟨i,q,v,source,target,notes,declared,given,fails,same,before⟩ := ih failed
    refine ⟨i + 1,q,v,source,target,notes,by simpa using declared,by simpa using given,fails,same,
      ?_⟩
    intro j earlier q u declared given
    cases j with
    | zero =>
      obtain rfl : p = q := by simpa using declared
      obtain rfl : value = u := by simpa using given
      exact ⟨first,cast⟩
    | succ j =>
      exact before j (by omega) q u (by simpa using declared) (by simpa using given)
  | case5 p parameters value rest first cast values others ih => contradiction

theorem Misfits.not_suits (misfits : f.Misfits store parameters arguments e) :
    ¬Suits store parameters arguments := by
  obtain ⟨i,p,v,_,_,_,declared,given,failed,_⟩ := misfits
  intro suits
  obtain ⟨u,cast⟩ := suits i p v declared given
  rw [cast] at failed
  contradiction

theorem exists_bindFixed_iff :
    (∃ bound, f.bindFixed store parameters arguments = .ok bound) ↔
      Suits store parameters arguments := by
  constructor
  · rintro ⟨bound,success⟩ i p v declared given
    obtain ⟨u,cast,_⟩ := (binds_of_bindFixed success).fixed i p v declared given
    exact ⟨u,cast⟩
  · intro suits
    cases outcome : f.bindFixed store parameters arguments with
    | ok bound => exact ⟨bound,rfl⟩
    | error e => exact absurd suits (misfits_of_bindFixed outcome).not_suits

theorem admits_iff {count : Nat} :
    f.admits count = true ↔
      if f.variadic = true then f.parameters.length ≤ count else count = f.parameters.length := by
  unfold admits arity
  split <;> simp

theorem bindArguments_of_admits (admitted : f.admits arguments.length = true) :
    f.bindArguments store arguments = f.bindFixed store f.parameters arguments :=
  if_pos admitted

theorem bindArguments_of_not_admits (refused : ¬f.admits arguments.length = true) :
    f.bindArguments store arguments =
      .error (.arityMismatch f.name f.parameters.length arguments.length f.variadic) :=
  if_neg refused

theorem admits_of_bindArguments (success : f.bindArguments store arguments = .ok bound) :
    f.admits arguments.length = true := by
  by_contra refused
  rw [bindArguments_of_not_admits refused] at success
  contradiction

theorem binds_of_bindArguments (success : f.bindArguments store arguments = .ok bound) :
    Binds store f.parameters arguments bound := by
  rw [bindArguments_of_admits (admits_of_bindArguments success)] at success
  exact binds_of_bindFixed success

theorem length_le_of_bindArguments (success : f.bindArguments store arguments = .ok bound) :
    f.parameters.length ≤ bound.length := by
  have admitted := admits_iff.mp (admits_of_bindArguments success)
  rw [(binds_of_bindArguments success).length]
  split at admitted
  · exact admitted
  · exact Nat.le_of_eq admitted.symm

end Function

/-! Values that fit. -/

theorem Object.isInstanceOf_carry {o : Object} {name : String}
    (objects : later.instances = store.instances) (classes : later.classes = store.classes)
    (found : ∀ (scope : Scope) (name : String) (c : ClassId),
      scope.lookupClass store name = .ok c → scope.lookupClass later name = .ok c)
    (member : o.isInstanceOf store name = true) : o.isInstanceOf later name = true := by
  have same : later.object o = store.object o := congrArg (·.get o.index) objects
  have body : ∀ c, later.classOf c = store.classOf c := fun c => congrArg (·.get c.index) classes
  simp only [isInstanceOf,same,Bool.or_eq_true] at member ⊢
  refine member.imp_right fun meant => ?_
  split at meant
  · contradiction
  next scope made =>
    split at meant
    next c sought => simpa [found scope name c sought,body] using meant
    next => contradiction

/-- A value goes on fitting where instances and classes stay and scopes find the classes that they
found. -/
theorem Value.Fits.carry {value : Value} {type : TypeName} (fits : value.Fits store type)
    (objects : later.instances = store.instances) (classes : later.classes = store.classes)
    (found : ∀ (scope : Scope) (name : String) (c : ClassId),
      scope.lookupClass store name = .ok c → scope.lookupClass later name = .ok c) :
    value.Fits later type := by
  cases value with
  | object o =>
    cases type with
    | any => rfl
    | named name =>
      simp only [Fits,Value.cast,castObject] at fits ⊢
      split at fits
      next member => rw [if_pos (Object.isInstanceOf_carry objects classes found member)]
      next => contradiction
    | boolean | string => cases Except.ok.inj fits
    | nothing | integer | double => contradiction
  | _ => exact fits

namespace Scope

theorem lookupClass_put (home : Scope) (store : Store β) (name sought : String) (v : Variable)
    (t : Scope) : t.lookupClass (home.put store name v) sought = t.lookupClass store sought := by
  have classes : ∀ s, ((home.put store name v).frame s).classes = (store.frame s).classes := by
    intro s
    rcases store.frame_modifyFrame_cases home s _ with same | ⟨_,same⟩ <;> rw [put,same]
  simp only [lookupClass,nearest?,chain_put,classes]

theorem lookupClass_child {name : String} {c : ClassId}
    (found : scope.lookupClass store name = .ok c) (outer : Scope) :
    scope.lookupClass (store.child outer).2 name = .ok c := by
  have opened : scope.index ≠ store.frames.size := by
    intro unopened
    have frame := Store.frame_of_size_le (Nat.le_of_eq unopened.symm)
    simp [lookupClass,nearest?,Store.chain,frame,Table.get?,Table.empty,Table.lookup] at found
  rw [← found]
  simp only [lookupClass,nearest?,Store.chain,classes_child,Store.frame_child_of_ne opened]

end Scope

theorem Value.Fits.put {value : Value} {type : TypeName} (fits : value.Fits store type)
    (home : Scope) (name : String) (v : Variable) : value.Fits (home.put store name v) type :=
  fits.carry rfl rfl fun t sought c found => by rwa [Scope.lookupClass_put]

theorem Value.Fits.child {value : Value} {type : TypeName} (fits : value.Fits store type)
    (outer : Scope) : value.Fits (store.child outer).2 type :=
  fits.carry rfl rfl fun _ _ _ found => Scope.lookupClass_child found outer

/-- Bound arguments fit the types of their parameters. -/
theorem Function.Binds.fits {parameters : List Parameter} {arguments bound : List Value}
    (binds : Binds store parameters arguments bound) {p : Parameter} {u : Value}
    (paired : (p,u) ∈ parameters.zip bound) : u.Fits store p.type := by
  obtain ⟨i,position⟩ := List.mem_iff_getElem?.mp paired
  obtain ⟨declared,held⟩ := List.getElem?_zip_eq_some.mp position
  have given : i < arguments.length := by
    rw [← binds.length]
    exact (List.getElem?_eq_some_iff.mp held).1
  obtain ⟨w,cast,same⟩ := binds.fixed i p arguments[i] declared (List.getElem?_eq_getElem given)
  obtain rfl : u = w := Option.some.inj (held.symm.trans same)
  exact Value.fits_of_cast cast

/-! Parameters as variables. -/

theorem Function.names_zip {parameters : List Parameter} {bound : List Value}
    (enough : parameters.length ≤ bound.length) :
    (parameters.zip bound).map (·.1.name) = parameters.map (·.name) := by
  calc
    (parameters.zip bound).map (·.1.name) = ((parameters.zip bound).map (·.1)).map (·.name) := by
      rw [List.map_map]
      rfl
    _ = parameters.map (·.name) := by rw [List.map_fst_zip enough]

def Parameter.holding (p : Parameter) (value : Value) : Variable :=
  { name := p.name, type := p.type, value, locked := false }

namespace Scope

def equip (scope : Scope) (store : Store β) : List (Parameter × Value) → Store β
  | [] => store
  | (p,value) :: rest => scope.equip (scope.put store p.name (p.holding value)) rest

theorem run_define_of_fits {name : String} {type : TypeName} {value : Value}
    (fits : value.Fits store type) (free : (store.frame scope).bindings.get? name = none)
    (locked : Bool) :
    (scope.define name type value locked).run store =
      (.ok (),scope.put store name { name, type, value, locked }) := by
  have same : value.cast store type = .ok value := fits
  simp [define,Action.run_bind,Variable.create,same,defineVariable,definesHere,Table.contains,free,
    put]

/-- What is free in the scope for a list of parameters: each of them, and each but once. -/
structure Free (scope : Scope) (store : Store β) (pairs : List (Parameter × Value)) : Prop where
  present : scope.index < store.frames.size
  distinct : (pairs.map (·.1.name)).Nodup
  unbound : ∀ pair ∈ pairs, (store.frame scope).bindings.get? pair.1.name = none

variable {p : Parameter} {value : Value} {pairs : List (Parameter × Value)}

theorem Free.tail (free : scope.Free store ((p,value) :: pairs)) :
    scope.Free (scope.put store p.name (p.holding value)) pairs := by
  obtain ⟨apart,distinct⟩ := List.nodup_cons.mp free.distinct
  refine ⟨?_,distinct,fun pair member => ?_⟩
  · rw [put,Store.modifyFrame,Arena.size_modify]
    exact free.present
  · have other : pair.1.name ≠ p.name := by
      intro same
      exact apart (List.mem_map.mpr ⟨pair,member,same⟩)
    rw [get?_put free.present,if_pos rfl,if_neg other]
    exact free.unbound pair (List.mem_cons_of_mem _ member)

theorem Free.run_defineParameters (free : scope.Free store pairs)
    (fits : ∀ pair ∈ pairs, pair.2.Fits store pair.1.type) :
    (Context.defineParameters scope pairs).run store = (.ok (),scope.equip store pairs) := by
  -- Each definition changes the store, and the values still to come have to fit in the new one.
  induction pairs generalizing store with
  | nil => rfl
  | cons pair rest ih =>
    obtain ⟨p,value⟩ := pair
    have defined := run_define_of_fits (fits _ List.mem_cons_self)
      (free.unbound _ List.mem_cons_self) false
    rw [Context.defineParameters,Action.run_bind,defined]
    exact ih free.tail fun pair member => (fits pair (List.mem_cons_of_mem _ member)).put _ _ _

theorem Free.entries_equip (free : scope.Free store pairs) :
    ((scope.equip store pairs).frame scope).bindings.entries =
      (store.frame scope).bindings.entries ++
        pairs.map fun pair => (pair.1.name,pair.1.holding pair.2) := by
  induction pairs generalizing store with
  | nil => simp [equip]
  | cons pair rest ih =>
    obtain ⟨p,value⟩ := pair
    have first : ((scope.put store p.name (p.holding value)).frame scope).bindings.entries =
        (store.frame scope).bindings.entries ++ [(p.name,p.holding value)] := by
      rw [put,Store.frame_modifyFrame_self free.present]
      exact Table.entries_insert_of_none (free.unbound _ List.mem_cons_self) _
    rw [equip,ih free.tail,first]
    simp

end Scope

namespace Context

variable {host : Host β σ} {ctx : Context} {f : Function β} {receiver : Option Object}
  {arguments bound : List Value} {w : World β σ} {code : β}

theorem frame_callee (ctx : Context) (receiver : Option Object) (store : Store β) :
    ∃ enclosing, (ctx.callee receiver store).2.frame (ctx.callee receiver store).1.scope =
      { enclosing } :=
  ⟨_,Store.frame_child_self store _⟩

/-- The scope of a body is free for its parameters. -/
theorem free_callee (ctx : Context) (distinct : (f.parameters.map (·.name)).Nodup)
    (enough : f.parameters.length ≤ bound.length) (receiver : Option Object) (store : Store β) :
    (ctx.callee receiver store).1.scope.Free (ctx.callee receiver store).2
      (f.parameters.zip bound) := by
  obtain ⟨enclosing,empty⟩ := ctx.frame_callee receiver store
  refine ⟨?_,?_,fun pair _ => ?_⟩
  · exact Nat.lt_of_lt_of_eq (Nat.lt_succ_self _) (Arena.size_push store.frames _).symm
  · rwa [Function.names_zip enough]
  · rw [empty]
    rfl

/-- The parameters of a body can all be defined, as the bound arguments still fit. -/
theorem run_defineParameters_callee (distinct : (f.parameters.map (·.name)).Nodup)
    (success : f.bindArguments store arguments = .ok bound) (receiver : Option Object) :
    (defineParameters (ctx.callee receiver store).1.scope (f.parameters.zip bound)).run
        (ctx.callee receiver store).2 =
      (.ok (),(ctx.callee receiver store).1.scope.equip (ctx.callee receiver store).2
        (f.parameters.zip bound)) := by
  have free := ctx.free_callee distinct (Function.length_le_of_bindArguments success) receiver store
  refine free.run_defineParameters fun pair member => ?_
  exact ((Function.binds_of_bindArguments success).fits member).child _

theorem bindings_equip_callee (ctx : Context) (distinct : (f.parameters.map (·.name)).Nodup)
    (enough : f.parameters.length ≤ bound.length) (receiver : Option Object) (store : Store β) :
    let inner := (ctx.callee receiver store).1
    let last := inner.scope.equip (ctx.callee receiver store).2 (f.parameters.zip bound)
    (last.frame inner.scope).bindings.names = f.parameters.map (·.name) ∧
    ∀ (i : Nat) (p : Parameter) (v : Value), f.parameters[i]? = some p → bound[i]? = some v →
      (last.frame inner.scope).bindings.get? p.name = some (p.holding v) := by
  intro inner last
  obtain ⟨enclosing,empty⟩ := ctx.frame_callee receiver store
  have entries : (last.frame inner.scope).bindings.entries =
      (f.parameters.zip bound).map fun pair => (pair.1.name,pair.1.holding pair.2) := by
    rw [(ctx.free_callee distinct enough receiver store).entries_equip,empty]
    rfl
  have names : (last.frame inner.scope).bindings.names = f.parameters.map (·.name) := by
    rw [Table.names,entries,List.map_map]
    exact Function.names_zip enough
  refine ⟨names,fun i p v declared held => Table.get?_of_mem (names ▸ distinct) ?_⟩
  rw [entries]
  have paired : (p,v) ∈ f.parameters.zip bound :=
    List.mem_of_getElem? (List.getElem?_zip_eq_some.mpr ⟨declared,held⟩)
  exact List.mem_map.mpr ⟨(p,v),paired,rfl⟩

/-- An invocation of an interpreted function gets to the body if the arguments bind, the calls are
not too deep and there is an evaluator. -/
theorem prelude_of_binds (interpreted : f.body = .interpreted code)
    (distinct : (f.parameters.map (·.name)).Nodup)
    (success : f.bindArguments w.store arguments = .ok bound)
    (shallow : ctx.depth < ctx.runtime.maxCallDepth) (enabled : ctx.runtime.evaluator = true) :
    ctx.prelude host f receiver arguments w =
      .entered (ctx.callee (receiverFor f.kind receiver) w.store).1
        (host.evaluate f code (receiverFor f.kind receiver) bound)
        { w with
          store := (ctx.callee (receiverFor f.kind receiver) w.store).1.scope.equip
            (ctx.callee (receiverFor f.kind receiver) w.store).2 (f.parameters.zip bound) } := by
  have within : ¬ctx.runtime.maxCallDepth < ctx.depth + 1 := by omega
  simp only [prelude,success,within,if_false,interpreted,
    run_defineParameters_callee distinct success,enabled,if_true]

end Context

theorem Scope.lookupVariable_of_get? {name : String} {v : Variable}
    (held : (store.frame scope).bindings.get? name = some v) :
    scope.lookupVariable store name = .ok v :=
  lookupVariable_eq_ok_iff.mpr ⟨scope,⟨[],_,rfl,nofun⟩,held⟩

/-- Arguments bind exactly if their number is right and each fixed one casts to the type of its
parameter. Bound, they are as many as before, cast at the fixed positions and unchanged behind them;
else the failure is that of the number, or that of the first position whose cast fails. The
evaluator then always gets to run an interpreted body whose parameters have distinct names, if the
calls are not too deep and there is an evaluator: the parameters are defined without fail, and they
are the variables of the scope that the body runs in, unlocked, of their declared types and with the
values that were bound, whatever the scopes around have under the same names. -/
theorem arguments_reach_body (f : Function β) :
    (∀ (store : Store β) (arguments : List Value),
      let counted :=
        if f.variadic = true then f.parameters.length ≤ arguments.length
        else arguments.length = f.parameters.length
      ((∃ bound, f.bindArguments store arguments = .ok bound) ↔
        counted ∧ Function.Suits store f.parameters arguments) ∧
      (∀ bound, f.bindArguments store arguments = .ok bound →
        Function.Binds store f.parameters arguments bound) ∧
      ∀ e, f.bindArguments store arguments = .error e →
        ¬counted ∧ e = .arityMismatch f.name f.parameters.length arguments.length f.variadic ∨
        counted ∧ f.Misfits store f.parameters arguments e) ∧
    ∀ (host : Host β σ) (ctx : Context) (receiver : Option Object) (arguments bound : List Value)
      (w : World β σ) (code : β),
      f.body = .interpreted code → (f.parameters.map (·.name)).Nodup →
      f.bindArguments w.store arguments = .ok bound →
      ctx.depth < ctx.runtime.maxCallDepth → ctx.runtime.evaluator = true →
      ∃ inner opened store,
        ctx.callee (Context.receiverFor f.kind receiver) w.store = (inner,opened) ∧
        (Context.defineParameters inner.scope (f.parameters.zip bound)).run opened =
          (.ok (),store) ∧
        (∀ enter, ctx.invoke host enter f receiver arguments w =
          Context.finish f (enter inner
            (host.evaluate f code (Context.receiverFor f.kind receiver) bound)
            { w with store })) ∧
        (store.frame inner.scope).bindings.names = f.parameters.map (·.name) ∧
        ∀ (i : Nat) (p : Parameter) (v : Value), f.parameters[i]? = some p → bound[i]? = some v →
          (store.frame inner.scope).bindings.get? p.name =
            some { name := p.name, type := p.type, value := v, locked := false } ∧
          inner.scope.lookupVariable store p.name =
            .ok { name := p.name, type := p.type, value := v, locked := false } := by
  refine ⟨fun store arguments => ?_,?_⟩
  · rw [← Function.admits_iff]
    refine ⟨?_,fun _ => Function.binds_of_bindArguments,fun e failed => ?_⟩
    · by_cases admitted : f.admits arguments.length = true
      · simp only [Function.bindArguments_of_admits admitted,admitted,true_and]
        exact Function.exists_bindFixed_iff
      · simp [Function.bindArguments_of_not_admits admitted,admitted]
    · by_cases admitted : f.admits arguments.length = true
      · rw [Function.bindArguments_of_admits admitted] at failed
        exact .inr ⟨admitted,Function.misfits_of_bindFixed failed⟩
      · rw [Function.bindArguments_of_not_admits admitted] at failed
        exact .inl ⟨admitted,(Except.error.inj failed).symm⟩
  · intro host ctx receiver arguments bound w code interpreted distinct success shallow enabled
    have enough := Function.length_le_of_bindArguments success
    obtain ⟨names,held⟩ := ctx.bindings_equip_callee distinct enough
      (Context.receiverFor f.kind receiver) w.store
    refine ⟨_,_,_,rfl,Context.run_defineParameters_callee distinct success _,fun enter => ?_,names,
      fun i p v declared bound => ?_⟩
    · rw [Context.invoke_eq_prelude,
        Context.prelude_of_binds interpreted distinct success shallow enabled]
      rfl
    · have found := held i p v declared bound
      exact ⟨found,Scope.lookupVariable_of_get? found⟩

/-! A function that takes an object of a class, a number and more, called where a locked variable
has the name of a parameter. -/
namespace Delivery

def ctx : Context := Runtime.first.withEvaluator.globalContext

def taken : Variable := { name := "N", type := .string, value := .string "taken", locked := true }

def world : World Unit Unit :=
  World.first.play .idle
    [.ask ctx (.defineClass { name := "P", modulePath := "m" }),.ask ctx (.newObject "P"),
      .ask ctx (.defineVariable taken)]

def function : Function Unit :=
  { name := "F"
    parameters := [{ name := "X", type := .named "P" },{ name := "N", type := .integer }]
    variadic := true
    body := .interpreted () }

def arguments : List Value := [.object ⟨0⟩,.string "0x10",.string "12"]

def bound : List Value := [.object ⟨0⟩,.integer 16,.string "12"]

end Delivery

/-- The number is read for its parameter and hides the variable outside, and the argument behind is
left as it is. -/
theorem arguments_reach_body_delivery :
    Delivery.ctx.scope.lookupVariable Delivery.world.store "N" = .ok Delivery.taken ∧
    Function.Binds Delivery.world.store Delivery.function.parameters Delivery.arguments
      Delivery.bound ∧
    ∃ (inner : Context) (store : Store Unit),
      (∀ enter, Delivery.ctx.invoke .idle enter Delivery.function none Delivery.arguments
        Delivery.world = Context.finish Delivery.function (enter inner (.done .nothing)
          { Delivery.world with store })) ∧
      inner.scope.lookupVariable store "N" =
        .ok { name := "N", type := .integer, value := .integer 16 } := by
  have success : Delivery.function.bindArguments Delivery.world.store Delivery.arguments =
      .ok Delivery.bound := rfl
  obtain ⟨binding,reaching⟩ := arguments_reach_body (σ := Unit) Delivery.function
  obtain ⟨inner,opened,store,_,_,entered,_,held⟩ := reaching .idle Delivery.ctx none
    Delivery.arguments Delivery.bound Delivery.world () rfl (by decide) success (by decide) rfl
  refine ⟨rfl,(binding _ _).2.1 _ success,inner,store,entered,?_⟩
  exact (held 1 { name := "N", type := .integer } (.integer 16) rfl rfl).2

end ObjectModel
