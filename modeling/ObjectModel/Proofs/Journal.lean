import ObjectModel.Proofs.Invocation
import ObjectModel.Proofs.RequestEffects

/-! Journals of runs. A run is a series of events: scopes open, requests are made in some context,
bodies begin. Its journal holds them in order, each with the number of invocations active at the
time and whether a fork lies on the way. Replaying the journal leads to the world that the run
ends in. -/
namespace ObjectModel

variable {β σ : Type}

inductive Event (β σ : Type) where
  | move (m : Move β)
  | keep (state : σ)
  | start (inner : Context)
  /-- A runtime comes up, with a global scope and a registry of its own. -/
  | found (maxCallDepth : Nat) (evaluator : Bool)

namespace Event

def perform (host : Host β σ) (w : World β σ) : Event β σ → World β σ
  | .move m => m.perform host w
  | .keep state => { w with host := state }
  | .start _ => w
  | .found maxCallDepth evaluator =>
    { w with store := (Runtime.create maxCallDepth evaluator w.store).2 }

def context? : Event β σ → Option Context
  | .move (.ask ctx _) | .start ctx => some ctx
  | _ => none

def Brings (store : Store β) : Event β σ → Variable → Prop
  | .move (.ask _ request), v => request.Brings store v
  | _, _ => False

def Introduces : Event β σ → Class β → Prop
  | .move (.ask _ request), c => request.Introduces c
  | _, _ => False

def Writes : Event β σ → Scope → Prop
  | .move (.ask ctx request), scope => request.Writes ctx scope
  | _, _ => False

def Clears : Event β σ → Scope → Prop
  | .move (.ask ctx request), scope => request.Clears ctx scope
  | _, _ => False

def target? (store : Store β) : Event β σ → Option (Seat × String)
  | .move (.ask ctx request) => request.target? ctx store
  | _ => none

def Makes (store : Store β) : Event β σ → ClassId → Prop
  | .move (.ask ctx request), c => request.Makes ctx store c
  | _, _ => False

def linearizes? (store : Store β) : Event β σ → Option ClassId
  | .move (.ask ctx request) => request.linearizes? ctx store
  | _ => none

def dealing? (w : World β σ) : Event β σ → Option Dealing
  | .move (.ask ctx request) => request.dealing? ctx w.store
  | _ => none

/-- What an event may do: that of its request, if it makes one. -/
def licence (w : World β σ) (e : Event β σ) : Licence β where
  brings := e.Brings w.store
  introduces := e.Introduces
  writes := e.Writes
  clears := e.Clears
  assigns seat name := e.target? w.store = some (seat,name)
  makes := e.Makes w.store
  records memo := ∃ c scope, e.linearizes? w.store = some c ∧
    memo = ((c.linearization scope).run w.store).2.memo
  deals dealing := e.dealing? w = some dealing

theorem acts (host : Host β σ) (w : World β σ) (e : Event β σ) (deals : Dealing → Prop) :
    Acts { e.licence w with deals } (e.dealing? w) w.store (e.perform host w).store := by
  cases e with
  | move m =>
    cases m with
    | enter outer => exact Alters.acts (.single (.enter _))
    | ask ctx request => exact request.acts host ctx w deals
  | keep | start => exact Alters.acts .refl
  | found maxCallDepth evaluator => exact Alters.acts (.tail (.single (.enter [])) .furnish)

theorem alters (host : Host β σ) (w : World β σ) (e : Event β σ) :
    Alters (e.licence w) w.store (e.perform host w).store :=
  (e.acts host w _).alters fun _ same => same

end Event

namespace World

def replay (host : Host β σ) (w : World β σ) (events : List (Event β σ)) : World β σ :=
  events.foldl (fun w e => e.perform host w) w

@[simp] theorem replay_append (host : Host β σ) (w : World β σ) (first second : List (Event β σ)) :
    w.replay host (first ++ second) = (w.replay host first).replay host second :=
  List.foldl_append

end World

structure Entry (β σ : Type) where
  event : Event β σ
  /-- How many invocations are active. -/
  frames : Nat := 0
  /-- Whether a context on the way was forked off. -/
  forked : Bool := false

namespace Entry

def ask (ctx : Context) (request : Request β) : Entry β σ := { event := .move (.ask ctx request) }

/-- The entry as seen from further out. -/
def within (frames : Nat) (forked : Bool) (entry : Entry β σ) : Entry β σ :=
  { entry with frames := frames + entry.frames, forked := forked || entry.forked }

def replay (host : Host β σ) (w : World β σ) (entries : List (Entry β σ)) : World β σ :=
  w.replay host (entries.map (·.event))

@[simp] theorem replay_cons (host : Host β σ) (w : World β σ) (entry : Entry β σ)
    (rest : List (Entry β σ)) :
    replay host w (entry :: rest) = replay host (entry.event.perform host w) rest := rfl

@[simp] theorem replay_append (host : Host β σ) (w : World β σ) (first second : List (Entry β σ)) :
    replay host w (first ++ second) = replay host (replay host w first) second := by
  simp [replay]

@[simp] theorem replay_within (host : Host β σ) (w : World β σ) (frames : Nat) (forked : Bool)
    (entries : List (Entry β σ)) :
    replay host w (entries.map (·.within frames forked)) = replay host w entries := by
  simp [replay,within,Function.comp_def]

end Entry

/-- What a run leaves on record: its entries, for the context, program and world it starts with. -/
abbrev Journal (β σ : Type) := Context → Program β σ → World β σ → List (Entry β σ)

namespace Context

def outer (ctx : Context) (receiver : Option Object) (store : Store β) : Scope :=
  (receiver.bind fun o => (store.object o).scope).getD ctx.scope

def parameterEntries (inner : Context) (store : Store β) :
    List (Parameter × Value) → List (Entry β σ)
  | [] => []
  | (p,value) :: rest =>
    .ask inner (.define p.name p.type value false) ::
      match (inner.scope.define p.name p.type value false).run store with
      | (.error _,_) => []
      | (.ok _,store) => parameterEntries inner store rest

def preparation (ctx : Context) (f : Function β) (receiver : Option Object)
    (arguments : List Value) (store : Store β) : List (Entry β σ) :=
  match f.bindArguments store arguments with
  | .error _ => []
  | .ok bound =>
    if ctx.runtime.maxCallDepth < ctx.depth + 1 then []
    else
      let receiver := receiverFor f.kind receiver
      let (inner,opened) := ctx.callee receiver store
      { event := .move (.enter (ctx.outer receiver store)) } ::
        match f.body with
        | .native _ => []
        | .interpreted _ => parameterEntries inner opened (f.parameters.zip bound)

def invocation (host : Host β σ) (journal : Journal β σ) (ctx : Context) (f : Function β)
    (receiver : Option Object) (arguments : List Value) (w : World β σ) : List (Entry β σ) :=
  ctx.preparation f receiver arguments w.store ++
    match ctx.prelude host f receiver arguments w with
    | .stopped _ _ => []
    | .entered inner p w => { event := .start inner } :: journal inner p w

end Context

/-- What a call comes to before it invokes a function: a result, or an invocation in its context.
A construction gives the instance it made in place of what the constructor gives. -/
inductive Approach (β σ : Type) where
  | settled (result : Except Error Value) (w : World β σ)
  | invokes (ctx : Context) (f : Function β) (receiver : Option Object) (arguments : List Value)
      (made : Option Object) (w : World β σ)

namespace Approach

def world : Approach β σ → World β σ
  | .settled _ w | .invokes _ _ _ _ _ w => w

def finish (host : Host β σ) (enter : Enter β σ) : Approach β σ → Outcome β σ
  | .settled result w => some (result,w)
  | .invokes ctx f receiver arguments made w =>
    match ctx.invoke host enter f receiver arguments w with
    | some (.ok v,w) => some (.ok (made.elim v .object),w)
    | other => other

end Approach

namespace Call

def approach (host : Host β σ) (ctx : Context) (c : Call β) (w : World β σ) : Approach β σ :=
  match c with
  | .function name arguments =>
    match ctx.scope.lookupFunction w.store name with
    | .error e => .settled (.error e) w
    | .ok f => .invokes ctx f none arguments none w
  | .method o name caller arguments =>
    match (o.dispatch host.supply name (caller.getD ctx.caller)).run w with
    | (.error e,w) => .settled (.error e) w
    | (.ok f,w) => .invokes ctx f (some o) arguments none w
  | .shared className name arguments =>
    match ctx.scope.lookupClass w.store className with
    | .error e => .settled (.error e) w
    | .ok c =>
      match (c.resolve host.supply ctx.scope name ctx.caller).run w with
      | (.error e,w) => .settled (.error e) w
      | (.ok f,w) =>
        .invokes (ctx.withCaller (w.store.classOf c).identity) f none arguments none w
  | .construct className arguments =>
    match (World.onStore (ctx.newObject className)).run w with
    | (.error e,w) => .settled (.error e) w
    | (.ok o,w) =>
      match (w.store.definitionOf o).constructor? with
      | some f => .invokes ctx f (some o) arguments (some o) w
      | none =>
        if arguments.isEmpty then .settled (.ok (.object o)) w
        else .settled (.error (.arityMismatch (w.store.definitionOf o).name 0 arguments.length
          false)) w
  | .invoke f receiver arguments => .invokes ctx f receiver arguments none w

def requests (ctx : Context) (store : Store β) : Call β → List (Request β)
  | .function _ _ | .invoke _ _ _ => []
  | .method o name caller _ => [.dispatch o name (caller.getD ctx.caller)]
  | .shared className name _ =>
    match ctx.scope.lookupClass store className with
    | .error _ => []
    | .ok c => [.resolve c name ctx.caller]
  | .construct className _ => [.newObject className]

def entries (host : Host β σ) (journal : Journal β σ) (ctx : Context) (c : Call β)
    (w : World β σ) : List (Entry β σ) :=
  (c.requests ctx w.store).map (.ask ctx) ++
    match c.approach host ctx w with
    | .settled _ _ => []
    | .invokes ctx f receiver arguments _ w =>
      (ctx.invocation host journal f receiver arguments w).map (·.within 1 false)

/-- A call is its approach and what that leads to, and leaves the context as it was: the identity
that a shared method takes on is given back also if it fails. -/
theorem perform_eq (host : Host β σ) (enter : Enter β σ) (ctx : Context) (c : Call β)
    (w : World β σ) :
    c.perform host enter ctx w = ((c.approach host ctx w).finish host enter,ctx) := by
  have plain : ∀ outcome : Outcome β σ, outcome = match outcome with
      | some (.ok v,w) => some (.ok v,w)
      | other => other := by
    rintro (_ | ⟨_ | v,w⟩) <;> rfl
  cases c with
  | function name arguments =>
    simp only [perform,approach,Context.callFunction,Context.invokeFound,World.run_onStore,
      Action.run_read]
    cases ctx.scope.lookupFunction w.store name with
    | error e => rfl
    | ok f => exact congrArg (·,ctx) (plain _)
  | method o name caller arguments =>
    simp only [perform,approach,Context.callMethod,Context.invokeFound]
    rcases (o.dispatch host.supply name (caller.getD ctx.caller)).run w with ⟨_ | f,w⟩
    · rfl
    · exact congrArg (·,ctx) (plain _)
  | shared className name arguments =>
    simp only [perform,approach,Context.callShared]
    cases ctx.scope.lookupClass w.store className with
    | error e => rfl
    | ok c =>
      simp only
      rcases (c.resolve host.supply ctx.scope name ctx.caller).run w with ⟨_ | f,w⟩
      · rfl
      · exact congrArg (·,ctx) (plain _)
  | construct className arguments =>
    simp only [perform,approach,Context.construct]
    rcases (World.onStore (ctx.newObject className)).run w with ⟨_ | o,w⟩
    · rfl
    · simp only
      cases (w.store.definitionOf o).constructor? with
      | some f => rfl
      | none =>
        simp only
        split <;> rfl
  | invoke f receiver arguments => exact congrArg (·,ctx) (plain _)

end Call

def Opening.outer (ctx : Context) : Opening → Scope
  | .child => ctx.scope
  | .fork => ctx.runtime.global

namespace Program

/-- The entries of a program, with what the bodies of its calls leave on record given. -/
def entries (host : Host β σ) (enter : Enter β σ) (journal : Journal β σ) :
    Program β σ → Context → World β σ → List (Entry β σ)
  | .done _, _, _ | .raise _, _, _ => []
  | .observe next, ctx, w => (next ctx w).entries host enter journal ctx w
  | .keep state next, ctx, w =>
    { event := .keep state } :: next.entries host enter journal ctx { w with host := state }
  | .ask request next, ctx, w =>
    .ask ctx request ::
      match (request.perform host ctx).run w with
      | (answer,w) => (next answer).entries host enter journal ctx w
  | .call c next, ctx, w =>
    c.entries host journal ctx w ++
      match c.perform host enter ctx w with
      | (none,_) => []
      | (some (result,w),ctx) => (next result).entries host enter journal ctx w
  | .block opening caller body next, ctx, w =>
    match opening.enter caller ctx w.store with
    | (inner,store) =>
      { event := .move (.enter (opening.outer ctx)) } ::
        (body.entries host enter journal inner { w with store }).map
          (·.within 0 (opening == .fork)) ++
        match body.execute host enter inner { w with store } with
        | none => []
        | some (result,w) => (next result).entries host enter journal ctx w
  | .lend o kind body update next, ctx, w =>
    .ask ctx (.takeHostData o kind) ::
      match o.takeHostData kind w.store with
      | (none,_) => (next none).entries host enter journal ctx w
      | (some data,store) =>
        (body data).entries host enter journal ctx { w with store } ++
          match (body data).execute host enter ctx { w with store } with
          | none => []
          | some (result,w) =>
            (if o.hasHostData w.store then []
              else [.ask ctx (.setHostData o (update data result))]) ++
            (next (some (data,result))).entries host enter journal ctx
              { w with store := o.restoreHostData (update data result) w.store }

def journal (host : Host β σ) : Nat → Journal β σ
  | 0, _, _, _ => []
  | levels + 1, ctx, p, w => p.entries host (run host levels) (journal host levels) ctx w

end Program

def Call.journal (host : Host β σ) (levels : Nat) :
    Context → Call β → World β σ → List (Entry β σ) :=
  Call.entries host (Program.journal host levels)

theorem Object.eq_of_takeHostData_none {o : Object} {kind : String} {store later : Store β}
    (empty : o.takeHostData kind store = (none,later)) : later = store := by
  unfold takeHostData at empty
  split at empty
  · exact (congrArg Prod.snd empty).symm
  · split at empty
    · exact nomatch congrArg Prod.fst empty
    · exact (congrArg Prod.snd empty).symm

/-- Replaying what is on record of a body leads to the world that the body leaves. -/
def Journal.Replays (host : Host β σ) (enter : Enter β σ) (journal : Journal β σ) : Prop :=
  ∀ ctx p w result after, enter ctx p w = some (result,after) →
    Entry.replay host w (journal ctx p w) = after

section

variable {host : Host β σ} {enter : Enter β σ} {journal : Journal β σ}

namespace Context

theorem replay_parameterEntries (host : Host β σ) (inner : Context)
    (bindings : List (Parameter × Value)) (w : World β σ) :
    Entry.replay host w (parameterEntries inner w.store bindings) =
      { w with store := ((defineParameters inner.scope bindings).run w.store).2 } := by
  induction bindings generalizing w with
  | nil => rfl
  | cons binding rest ih =>
    obtain ⟨p,value⟩ := binding
    rw [parameterEntries,Entry.replay_cons,defineParameters,Action.run_bind]
    have defined : (Entry.ask inner (.define p.name p.type value false)).event.perform host w =
        { w with store := ((inner.scope.define p.name p.type value false).run w.store).2 } := rfl
    rw [defined]
    rcases (inner.scope.define p.name p.type value false).run w.store with ⟨_ | _,next⟩
    · rfl
    · exact ih { w with store := next }

theorem replay_preparation (host : Host β σ) (ctx : Context) (f : Function β)
    (receiver : Option Object) (arguments : List Value) (w : World β σ) :
    Entry.replay host w (ctx.preparation f receiver arguments w.store) =
      (ctx.prelude host f receiver arguments w).world := by
  unfold preparation prelude
  cases f.bindArguments w.store arguments with
  | error e => rfl
  | ok bound =>
    simp only
    split
    · rfl
    · rw [Entry.replay_cons]
      cases f.body with
      | native code => rfl
      | interpreted code =>
        have defined := replay_parameterEntries host
          (ctx.callee (receiverFor f.kind receiver) w.store).1 (f.parameters.zip bound)
          { w with store := (ctx.callee (receiverFor f.kind receiver) w.store).2 }
        simp only at defined ⊢
        generalize (defineParameters _ (f.parameters.zip bound)).run _ = outcome at defined ⊢
        rcases outcome with ⟨_ | _,store⟩
        · exact defined
        · simp only
          split <;> exact defined

theorem replay_invocation (replays : journal.Replays host enter) {ctx : Context} {f : Function β}
    {receiver : Option Object} {arguments : List Value} {w after : World β σ}
    {result : Except Error Value}
    (ran : ctx.invoke host enter f receiver arguments w = some (result,after)) :
    Entry.replay host w (ctx.invocation host journal f receiver arguments w) = after := by
  rw [invoke_eq_prelude] at ran
  rw [invocation,Entry.replay_append,replay_preparation]
  cases entered : ctx.prelude host f receiver arguments w with
  | stopped e left =>
    rw [entered] at ran
    exact congrArg Prod.snd (Option.some.inj ran)
  | entered inner p left =>
    rw [entered] at ran
    simp only [Prelude.finish] at ran
    rcases body : enter inner p left with _ | ⟨_ | v,last⟩ <;> rw [body] at ran
    · contradiction
    all_goals
      obtain rfl : last = after := congrArg Prod.snd (Option.some.inj ran)
      exact replays inner p left _ last body

end Context

namespace Call

theorem replay_requests (host : Host β σ) (ctx : Context) (c : Call β) (w : World β σ) :
    Entry.replay host w ((c.requests ctx w.store).map (.ask ctx)) =
      (c.approach host ctx w).world := by
  cases c with
  | function name arguments =>
    simp only [requests,approach]
    cases ctx.scope.lookupFunction w.store name <;> rfl
  | method o name caller arguments =>
    have asked : ((o.dispatch host.supply name (caller.getD ctx.caller)).run w).2 =
        Entry.replay host w [.ask ctx (.dispatch o name (caller.getD ctx.caller))] := rfl
    simp only [requests,approach,List.map_cons,List.map_nil,← asked]
    rcases (o.dispatch host.supply name (caller.getD ctx.caller)).run w with ⟨_ | f,w⟩ <;> rfl
  | shared className name arguments =>
    simp only [requests,approach]
    cases ctx.scope.lookupClass w.store className with
    | error e => rfl
    | ok c =>
      have asked : ((c.resolve host.supply ctx.scope name ctx.caller).run w).2 =
          Entry.replay host w [.ask ctx (.resolve c name ctx.caller)] := rfl
      simp only [List.map_cons,List.map_nil,← asked]
      rcases (c.resolve host.supply ctx.scope name ctx.caller).run w with ⟨_ | f,w⟩ <;> rfl
  | construct className arguments =>
    have asked : ((World.onStore (ctx.newObject className)).run w).2 =
        Entry.replay host w [.ask ctx (.newObject className)] := rfl
    simp only [requests,approach,List.map_cons,List.map_nil,← asked]
    rcases (World.onStore (ctx.newObject className)).run w with ⟨_ | o,w⟩
    · rfl
    · simp only
      cases (w.store.definitionOf o).constructor? with
      | some f => rfl
      | none =>
        simp only
        split <;> rfl
  | invoke f receiver arguments => rfl

theorem replay_entries (replays : journal.Replays host enter) {ctx back : Context} {c : Call β}
    {w after : World β σ} {result : Except Error Value}
    (ran : c.perform host enter ctx w = (some (result,after),back)) :
    Entry.replay host w (c.entries host journal ctx w) = after := by
  rw [perform_eq] at ran
  have ran := congrArg Prod.fst ran
  rw [entries,Entry.replay_append,replay_requests]
  cases approached : c.approach host ctx w with
  | settled answer left =>
    rw [approached] at ran
    exact congrArg Prod.snd (Option.some.inj ran)
  | invokes inner f receiver arguments made left =>
    rw [approached] at ran
    simp only [Approach.finish] at ran
    rw [Entry.replay_within]
    rcases invoked : inner.invoke host enter f receiver arguments left with _ | ⟨_ | v,last⟩ <;>
      rw [invoked] at ran
    · contradiction
    all_goals
      obtain rfl : last = after := congrArg Prod.snd (Option.some.inj ran)
      exact Context.replay_invocation replays invoked

end Call

namespace Program

theorem replay_entries (replays : journal.Replays host enter) {p : Program β σ} {ctx : Context}
    {w after : World β σ} {result : Except Error Value}
    (ran : p.execute host enter ctx w = some (result,after)) :
    Entry.replay host w (p.entries host enter journal ctx w) = after := by
  induction p generalizing ctx w result after with
  | done v => exact congrArg Prod.snd (Option.some.inj ran)
  | raise e => exact congrArg Prod.snd (Option.some.inj ran)
  | observe next ih => exact ih ctx w ran
  | keep state next ih => exact ih ran
  | ask request next ih => exact ih _ ran
  | call c next ih =>
    rw [entries,Entry.replay_append]
    rw [execute] at ran
    rcases called : c.perform host enter ctx w with ⟨_ | ⟨answer,left⟩,back⟩ <;>
      simp only [called] at ran ⊢
    · contradiction
    · rw [Call.replay_entries replays called]
      exact ih answer ran
  | block opening caller body next ihBody ih =>
    have entered : (Event.move (.enter (opening.outer ctx))).perform host w =
        { w with store := (opening.enter caller ctx w.store).2 } := by
      cases opening <;> rfl
    rw [entries]
    rw [execute] at ran
    rcases opened : opening.enter caller ctx w.store with ⟨inner,store⟩
    simp only [opened] at ran entered ⊢
    rcases inside : body.execute host enter inner { w with store } with _ | ⟨answer,left⟩ <;>
      simp only [inside] at ran ⊢
    · contradiction
    · rw [List.cons_append,Entry.replay_cons,Entry.replay_append,Entry.replay_within,entered,
        ihBody inside]
      exact ih answer ran
  | lend o kind body update next ihBody ih =>
    have taken : (Entry.ask ctx (.takeHostData o kind)).event.perform host w =
        { w with store := (o.takeHostData kind w.store).2 } := rfl
    rw [entries,Entry.replay_cons,taken]
    rw [execute] at ran
    rcases held : o.takeHostData kind w.store with ⟨_ | data,store⟩ <;> simp only [held] at ran ⊢
    · obtain rfl := Object.eq_of_takeHostData_none held
      exact ih none ran
    · rcases inside : (body data).execute host enter ctx { w with store } with _ | ⟨answer,left⟩ <;>
        simp only [inside] at ran ⊢
      · contradiction
      · have restored : Entry.replay host left (if o.hasHostData left.store then []
            else [.ask ctx (.setHostData o (update data answer))]) =
            { left with store := o.restoreHostData (update data answer) left.store } := by
          unfold Object.restoreHostData
          split <;> rfl
        rw [Entry.replay_append,Entry.replay_append,ihBody data inside,restored]
        exact ih _ ran

end Program

end

theorem Program.replay_journal (host : Host β σ) (levels : Nat) :
    (journal host levels).Replays host (run host levels) := by
  induction levels with
  | zero => exact fun _ _ _ _ _ ran => nomatch ran
  | succ levels ih => exact fun ctx p w result after ran => replay_entries ih ran

theorem Call.replay_journal {host : Host β σ} {levels : Nat} {ctx back : Context} {c : Call β}
    {w after : World β σ} {result : Except Error Value}
    (ran : c.perform host (Program.run host levels) ctx w = (some (result,after),back)) :
    Entry.replay host w (c.journal host levels ctx w) = after :=
  Call.replay_entries (Program.replay_journal host levels) ran

/-! Which bodies run, and where. -/
namespace Entry

def barred (bar : Nat → Context → Bool) (entry : Entry β σ) : Bool :=
  match entry.event with
  | .start inner => bar entry.frames inner
  | _ => false

end Entry

/-- The bodies that are entered are the ones on record, with their contexts and the number of
invocations active: a run in which some are barred comes to nothing if one of these is on record,
and to the same as ever if none is. -/
def Journal.Records (enter : Enter β σ) (barred : (Nat → Context → Bool) → Enter β σ)
    (journal : Journal β σ) : Prop :=
  ∀ bar ctx p w, barred bar ctx p w =
    if (journal ctx p w).any (·.barred bar) then none else enter ctx p w

section

variable {host : Host β σ} {enter : Enter β σ} {barred : (Nat → Context → Bool) → Enter β σ}
  {journal : Journal β σ}

namespace Context

end Context

namespace Call

end Call

namespace Program

end Program

end

namespace Program

end Program

end ObjectModel
