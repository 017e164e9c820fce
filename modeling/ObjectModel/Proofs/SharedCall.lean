import ObjectModel.Proofs.Course
import ObjectModel.Proofs.Lineage

/-! Methods of a class, called through an instance and through the class. An instance made in
a scope has the order that is recorded for its class, so both ways lead to the same method. A method
of the class itself has no receiver either way, and its body is entered in the same world, with the
same arguments, at the same depth and in a new scope inside the caller's. But through the class it
runs as the class, and through the instance it runs as whoever called. -/
namespace ObjectModel

variable {β σ : Type}

/-- Every instance that was made in a scope has the order recorded for its class. -/
def Store.Ordered (store : Store β) : Prop :=
  ∀ o scope, (store.object o).scope = some scope →
    store.memo.get? (store.object o).definition = some (store.object o).hierarchy

theorem Alteration.ordered {l : Licence β} {store later : Store β}
    (alteration : Alteration l store later) (ordered : store.Ordered) : later.Ordered := by
  intro o scope made
  obtain ⟨extends_,_⟩ := alteration.memo
  rcases alteration.object o with lasts | ⟨_,fresh⟩
  · rw [lasts.definition,lasts.hierarchy]
    exact extends_ _ _ (ordered o scope (lasts.scope ▸ made))
  · exact extends_ _ _ (fresh.ordered scope made)

theorem Alters.ordered {l : Licence β} {store later : Store β} (alters : Alters l store later)
    (ordered : store.Ordered) : later.Ordered := by
  induction alters with
  | refl => exact ordered
  | tail _ alteration ih => exact alteration.ordered ih

theorem World.Attains.ordered_of {host : Host β σ} {rule : List (Store β) → Event β σ → Prop}
    {start w : World β σ} {past : List (Store β)} (attained : Attains host rule start past w)
    (ordered : start.store.Ordered) : w.store.Ordered :=
  attained.holds (fun _ store => store.Ordered)
    (fun _ w e ordered _ => (e.alters host w).ordered ordered) ordered

theorem World.Attains.ordered {host : Host β σ} {rule : List (Store β) → Event β σ → Prop}
    {state : σ} {past : List (Store β)} {w : World β σ}
    (attained : Attains host rule ⟨.empty,state⟩ past w) : w.store.Ordered :=
  attained.ordered_of nofun

/-- The method of an object is the one of its class, as seen from where the object was made. -/
theorem Object.dispatch_eq_resolve {o : Object} {scope : Scope} {w : World β σ}
    (ordered : w.store.Ordered) (made : (w.store.object o).scope = some scope)
    (supply : Resolution.Supply β σ) (name : String) (caller : Caller) :
    (o.dispatch supply name caller).run w =
      ((w.store.object o).definition.resolve supply scope name caller).run w := by
  have recorded : (w.store.object o).definition.recorded? w.store =
      some (w.store.object o).hierarchy := ordered o scope made
  rw [ClassId.resolve,Action.run_bind,World.run_onStore,ClassId.linearization_of_recorded recorded]
  simp only [dispatch,Action.run_bind,Action.run_get,made]

namespace Prelude

def actAs (caller : Caller) : Prelude β σ → Prelude β σ
  | .stopped e w => .stopped e w
  | .entered inner p w => .entered (inner.withCaller caller) p w

end Prelude

namespace Context

/-- A body without a receiver is begun in the same way under every identity. -/
theorem prelude_withCaller {host : Host β σ} {ctx : Context} {f : Function β}
    {receiver : Option Object} {arguments : List Value} {w : World β σ}
    (unheld : receiverFor f.kind receiver = none) (caller : Caller) :
    (ctx.withCaller caller).prelude host f none arguments w =
      (ctx.prelude host f receiver arguments w).actAs caller := by
  have without : receiverFor f.kind none = none := by cases f.kind <;> rfl
  unfold prelude
  rw [unheld,without]
  cases f.bindArguments w.store arguments with
  | error e => rfl
  | ok bound =>
    simp only [withCaller,callee]
    by_cases deep : ctx.runtime.maxCallDepth < ctx.depth + 1
    · simp only [deep,↓reduceIte,Prelude.actAs]
    · simp only [deep,↓reduceIte]
      cases f.body with
      | native code => rfl
      | interpreted code =>
        simp only
        generalize (defineParameters _ (f.parameters.zip bound)).run _ = defined
        rcases defined with ⟨_ | _,store⟩
        · rfl
        · by_cases enabled : ctx.runtime.evaluator = true <;>
            simp [enabled,Prelude.actAs,withCaller]

end Context

/-- A method of the class itself, called through an instance made in the scope of the context and
through the class under its qualified name. Both calls come to the same method and begin its body
alike, except that through the class it acts under the identity of the class. So the two begin
the same exactly if the caller has that identity already, or if neither gets to the body. -/
theorem shared_call_agrees_iff {host : Host β σ} {rule : List (Store β) → Event β σ → Prop}
    {state : σ} {past : List (Store β)} {w later : World β σ} {ctx : Context} {o : Object}
    {name : String} {f : Function β}
    (attained : World.Attains host rule ⟨.empty,state⟩ past w)
    (made : (w.store.object o).scope = some ctx.scope)
    (seen : ctx.scope.lookupClass w.store (w.store.definitionOf o).qualifiedName =
      .ok (w.store.object o).definition)
    (resolved : (o.dispatch host.supply name ctx.caller).run w = (.ok f,later))
    (shared : f.kind = .shared) (arguments : List Value) :
    let identity := (w.store.definitionOf o).identity
    let byObject := ctx.prelude host f (some o) arguments later
    let byClass := (ctx.withCaller identity).prelude host f none arguments later
    (∀ enter, ctx.callMethod host enter o name ctx.caller arguments w =
      byObject.finish enter f) ∧
    (∀ enter, ctx.callShared host enter (w.store.definitionOf o).qualifiedName name arguments w =
      (byClass.finish enter f,ctx)) ∧
    (∀ inner p begun, byObject = .entered inner p begun →
      inner = { ctx with
        scope := (later.store.child ctx.scope).1, receiver := none, depth := ctx.depth + 1 }) ∧
    byClass = byObject.actAs identity ∧
    (byObject = byClass ↔ ctx.caller = identity ∨ ∃ e stopped, byObject = .stopped e stopped) := by
  intro identity byObject byClass
  have unheld : Context.receiverFor f.kind (some o) = none := by rw [shared]; rfl
  have same : later.store = w.store := (congrArg (·.2.store) resolved).symm
  have found := resolved
  rw [Object.dispatch_eq_resolve attained.ordered made] at found
  have acting : byClass = byObject.actAs identity := Context.prelude_withCaller unheld identity
  have opened : ∀ inner p begun, byObject = .entered inner p begun →
      inner = { ctx with
        scope := (later.store.child ctx.scope).1, receiver := none, depth := ctx.depth + 1 } := by
    intro inner p begun entered
    rw [Context.inner_of_prelude entered,unheld]
    rfl
  refine ⟨fun enter => ?_,fun enter => ?_,opened,acting,?_⟩
  · rw [Context.callMethod,Context.invokeFound,resolved]
    exact Context.invoke_eq_prelude host enter ctx f (some o) arguments later
  · simp only [Context.callShared,seen,found,same]
    exact Prod.ext (Context.invoke_eq_prelude host enter _ f none arguments later) rfl
  · rw [acting]
    cases begun : byObject with
    | stopped e u => exact iff_of_true rfl (.inr ⟨e,u,rfl⟩)
    | entered inner p u =>
      simp only [Prelude.actAs,Context.withCaller,Prelude.entered.injEq,and_true,reduceCtorEq,
        exists_false,or_false]
      rw [opened inner p u begun]
      simp

/-! A method of a class that reads a hidden member of the object it is given. -/
namespace Peep

def host : Host Unit Unit where
  native _ _ bound := .observe fun inner w =>
    match bound with
    | [.object o] =>
      match o.getMember w.store "P" inner.caller with
      | .ok v => .done v
      | .error e => .raise e
    | _ => .done .nothing
  evaluate _ _ _ _ := .done .nothing
  supply := Resolution.refuse

def method : Function Unit :=
  { name := "PEEP", parameters := [{ name := "O", type := .any }], body := .native (),
    kind := .shared }

def definition : Class Unit :=
  (({ name := "C", modulePath := "m" } : Class Unit).declareVariable
    (Variable.dynamic "P" (.integer 1)).hide).declareSharedFunction method

def ctx : Context := Runtime.first.globalContext

def events : List (Event Unit Unit) :=
  [.found defaultCallDepth false,.move (.ask ctx (.defineClass definition)),
    .move (.ask ctx (.newObject "C"))]

def world : World Unit Unit := World.replay host ⟨.empty,()⟩ events

theorem attained : ∃ past, World.Attains host (fun _ _ => True) ⟨.empty,()⟩ past world := by
  have conforms : World.Conforms host (fun _ _ => True) [] ⟨.empty,()⟩ events :=
    ⟨trivial,trivial,trivial,trivial⟩
  exact ⟨_,.series .start conforms⟩

def inside : Context := ctx.withCaller definition.identity

end Peep

/-- To code outside all classes the member is there through the class, and refused through the
object. -/
theorem shared_method_runs_as_caller :
    (∃ past, World.Attains Peep.host (fun _ _ => True) ⟨.empty,()⟩ past Peep.world) ∧
    (Peep.world.store.object ⟨0⟩).scope = some Peep.ctx.scope ∧
    Peep.ctx.scope.lookupClass Peep.world.store "m.C" = .ok ⟨0⟩ ∧
    (Peep.world.store.object ⟨0⟩).definition = ⟨0⟩ ∧
    (Object.dispatch Peep.host.supply ⟨0⟩ "PEEP" Peep.ctx.caller).run Peep.world =
      (.ok Peep.method,Peep.world) ∧
    Peep.method.kind = .shared ∧
    (Peep.ctx.callShared Peep.host (Program.run Peep.host 1) "m.C" "PEEP" [.object ⟨0⟩]
      Peep.world).1.map (·.1) = some (.ok (.integer 1)) ∧
    (Peep.ctx.callMethod Peep.host (Program.run Peep.host 1) ⟨0⟩ "PEEP" Peep.ctx.caller
      [.object ⟨0⟩] Peep.world).map (·.1) =
        some (.error (.inaccessible .memberVariable "P")) :=
  ⟨Peep.attained,rfl,rfl,rfl,rfl,rfl,rfl,rfl⟩

theorem shared_call_agrees_iff_peep :
    Peep.inside.callMethod Peep.host (Program.run Peep.host 1) ⟨0⟩ "PEEP" Peep.inside.caller
        [.object ⟨0⟩] Peep.world =
      (Peep.inside.callShared Peep.host (Program.run Peep.host 1) "m.C" "PEEP" [.object ⟨0⟩]
        Peep.world).1 := by
  obtain ⟨_,attained⟩ := Peep.attained
  have made : (Peep.world.store.object ⟨0⟩).scope = some Peep.inside.scope := rfl
  have resolved : (Object.dispatch Peep.host.supply ⟨0⟩ "PEEP" Peep.inside.caller).run Peep.world =
      (.ok Peep.method,Peep.world) := rfl
  obtain ⟨byObject,byClass,_,_,agrees⟩ :=
    shared_call_agrees_iff attained made rfl resolved rfl [.object ⟨0⟩]
  have through := congrArg Prod.fst (byClass (Program.run Peep.host 1))
  rw [← agrees.mpr (.inl rfl)] at through
  exact (byObject _).trans through.symm

end ObjectModel
