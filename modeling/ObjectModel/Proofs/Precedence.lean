import ObjectModel.Proofs.MethodSearch

/-! Which method a class answers with. A class offers a method to a caller or hides it, and which
of the two is read off its tables. Resolution goes by that alone: the class itself may hide the
method, and then nobody else is asked; else the first class of the line that offers it answers; else
the first handler of the line does; and only then does a method hidden further up make the failure
one of access. So a private method goes to code of the class that declares it and to no other. -/
namespace ObjectModel

variable {β σ : Type}

namespace Class

variable {c : Class β} {name : String} {caller : Caller} {f : Function β}

/-- The method that a class lets a caller have: a public one, a private one if the caller is the
class itself, or a shared one that no private one covers. -/
inductive Offers (c : Class β) (name : String) (caller : Caller) : Function β → Prop where
  | shown {f : Function β} (found : c.publicFunctions.get? name = some f) : Offers c name caller f
  | own {f : Function β} (unshown : c.publicFunctions.get? name = none)
      (found : c.privateFunctions.get? name = some f) (itself : caller = c.identity) :
      Offers c name caller f
  | shared {f : Function β} (unshown : c.publicFunctions.get? name = none)
      (unhidden : c.privateFunctions.get? name = none)
      (found : c.sharedFunctions.get? name = some f) : Offers c name caller f

structure Hides (c : Class β) (name : String) (caller : Caller) : Prop where
  unshown : c.publicFunctions.get? name = none
  hidden : c.privateFunctions.get? name ≠ none
  stranger : caller ≠ c.identity

theorem offer_eq_found_iff : c.offer name caller = .found f ↔ c.Offers name caller f := by
  have identified : caller.is c.qualifiedName = true ↔ caller = c.identity := by
    simp [Caller.is,identity]
  unfold offer
  constructor
  · intro found
    split at found
    next shown =>
      obtain rfl := Offer.found.inj found
      exact .shown shown
    next unshown =>
      split at found
      next own =>
        split at found
        next itself =>
          obtain rfl := Offer.found.inj found
          exact .own unshown own (identified.mp itself)
        next => contradiction
      next unhidden =>
        split at found
        next shared =>
          obtain rfl := Offer.found.inj found
          exact .shared unshown unhidden shared
        next => contradiction
  · intro offers
    cases offers with
    | shown found => simp only [found]
    | own unshown found itself => simp only [unshown,found,identified.mpr itself,if_true]
    | shared unshown unhidden found => simp only [unshown,unhidden,found]

theorem offer_eq_denied_iff_hides : c.offer name caller = .denied ↔ c.Hides name caller := by
  rw [offer_eq_denied_iff]
  exact ⟨fun ⟨unshown,hidden,stranger⟩ => ⟨unshown,hidden,stranger⟩,
    fun hides => ⟨hides.unshown,hides.hidden,hides.stranger⟩⟩

theorem offered?_eq_some_iff_offers : c.offered? name caller = some f ↔ c.Offers name caller f :=
  offered?_eq_some_iff.trans offer_eq_found_iff

theorem offered?_ne_none_iff : c.offered? name caller ≠ none ↔ ∃ f, c.Offers name caller f := by
  simp only [← offered?_eq_some_iff_offers,Option.ne_none_iff_exists']

end Class

/-- The scope has a class under its own qualified name. -/
def Scope.Shows (scope : Scope) (store : Store β) (entry : String) (d : ClassId) : Prop :=
  scope.lookupClass store entry = .ok d ∧ (store.classOf d).qualifiedName = entry

def First {α : Type} (holds : α → Prop) (line : List α) (d : α) : Prop :=
  ∃ before after, line = before ++ d :: after ∧ (∀ e ∈ before, ¬holds e) ∧ holds d

theorem exists_first {α γ : Type} {pick : α → Option γ} {line : List α}
    (present : ∃ d ∈ line, pick d ≠ none) :
    ∃ d found, First (pick · ≠ none) line d ∧ pick d = some found ∧
      line.findSome? pick = some found := by
  obtain ⟨d,member,has⟩ := present
  have picks : (line.findSome? pick).isSome :=
    List.findSome?_isSome_iff.mpr ⟨d,member,Option.isSome_iff_ne_none.mpr has⟩
  obtain ⟨found,searched⟩ := Option.isSome_iff_exists.mp picks
  obtain ⟨before,first,after,split,picked,passed⟩ := List.findSome?_eq_some_iff.mp searched
  refine ⟨first,found,⟨before,after,split,fun e earlier => ?_,?_⟩,picked,searched⟩
  · exact not_not.mpr (passed e earlier)
  · exact Option.ne_none_iff_exists'.mpr ⟨found,picked⟩

namespace Resolution

variable {own : Class β} {classes : List (Class β)} {name : String} {caller : Caller}

theorem firstOffer_eq_denied_iff {denied : Bool} :
    firstOffer name caller classes denied = .denied ↔
      classes.findSome? (·.offered? name caller) = none ∧
        (denied = true ∨ ∃ c ∈ classes, c.Hides name caller) := by
  induction classes generalizing denied with
  | nil => cases denied <;> simp [firstOffer]
  | cons c rest ih =>
    rw [firstOffer,List.findSome?_cons,Class.offered?]
    simp only [← Class.offer_eq_denied_iff_hides] at ih ⊢
    cases offer : c.offer name caller with
    | found f => simp
    | denied => simpa [offer] using @ih true
    | missing => simpa [offer] using @ih denied

theorem search_eq_denied_iff :
    search own classes name caller = .denied ↔ own.Hides name caller ∨
      (own :: classes).findSome? (·.offered? name caller) = none ∧
      (own :: classes).findSome? (·.fallback) = none ∧ ∃ c ∈ classes, c.Hides name caller := by
  rw [search,← Class.offer_eq_denied_iff_hides]
  cases offer : own.offer name caller with
  | found f => simp [Class.offered?,offer]
  | denied => simp
  | missing =>
    have passed : (own :: classes).findSome? (·.offered? name caller) =
        classes.findSome? (·.offered? name caller) := by
      simp [Class.offered?,offer]
    have refused := @firstOffer_eq_denied_iff β classes name caller false
    simp only [Bool.false_eq_true,false_or] at refused
    rw [passed,and_left_comm,← refused]
    cases firstOffer name caller classes false <;>
      cases (own :: classes).findSome? (·.fallback) <;> simp

theorem search_eq_missing_iff :
    search own classes name caller = .missing ↔
      (own :: classes).findSome? (·.offered? name caller) = none ∧
      (own :: classes).findSome? (·.fallback) = none ∧
      ∀ c ∈ own :: classes, ¬c.Hides name caller := by
  constructor
  · intro missing
    have unfound := @search_eq_found_iff β own classes name caller
    have unsupplied := @search_eq_consult_iff β own classes name caller
    have unrefused := @search_eq_denied_iff β own classes name caller
    simp only [missing,reduceCtorEq,false_iff,not_or,not_and] at unfound unsupplied unrefused
    have allowed := unrefused.1
    rw [← Class.offer_eq_denied_iff_hides] at allowed
    have unoffered := Option.eq_none_iff_forall_ne_some.mpr fun f => unfound allowed
    have unhandled := Option.eq_none_iff_forall_ne_some.mpr fun h => unsupplied allowed unoffered
    refine ⟨unoffered,unhandled,List.forall_mem_cons.mpr ⟨unrefused.1,fun c member hides => ?_⟩⟩
    exact unrefused.2 unoffered unhandled ⟨c,member,hides⟩
  · rintro ⟨unoffered,unhandled,unhidden⟩
    obtain ⟨allowed,others⟩ := List.forall_mem_cons.mp unhidden
    cases verdict : search own classes name caller with
    | found f => simp [(search_eq_found_iff.mp verdict).2] at unoffered
    | consult handler => simp [(search_eq_consult_iff.mp verdict).2.2] at unhandled
    | missing => rfl
    | denied =>
      rcases search_eq_denied_iff.mp verdict with hides | ⟨_,_,c,member,hides⟩
      · exact absurd hides allowed
      · exact absurd hides (others c member)

/-- The classes that stand for the entries behind the head of an order are the ones searched. -/
theorem visibleAncestors_of_shows {store : Store β} {scope : Scope} {order : List String}
    {ancestors : List ClassId}
    (shows : List.Forall₂ (scope.Shows store) order.tail ancestors) :
    visibleAncestors store (some scope) order = ancestors.map store.classOf := by
  unfold visibleAncestors
  generalize order.tail = entries at shows
  induction shows with
  | nil => rfl
  | cons shown _ ih => simp only [List.filterMap_cons,shown.1,ih,List.map_cons]

/-- What a handler supplies is the answer, with a free function turned into a method. -/
theorem run_settle_consult (supply : Supply β σ) (handler : β) (w : World β σ) :
    (World.onHost (settle supply name caller (.consult handler))).run w =
      match (supply handler name caller).run w.host with
      | (.ok f,host) =>
        (.ok (if f.kind = .free then { f with kind := .method } else f),{ w with host })
      | (.error e,host) => (.error e,{ w with host }) := by
  have turned : ∀ f : Function β,
      f.asMethod = if f.kind = .free then { f with kind := .method } else f := by
    intro f
    unfold Function.asMethod Function.withKind
    cases f.kind <;> rfl
  have ran : (World.onHost (settle supply name caller (.consult handler))).run w =
      (((settle supply name caller (.consult handler)).run w.host).1,
        { w with host := ((settle supply name caller (.consult handler)).run w.host).2 }) := rfl
  rw [ran,settle,Action.run_bind]
  rcases (supply handler name caller).run w.host with ⟨_ | f,host⟩
  · rfl
  · simp only [Action.run_pure,turned]

end Resolution

/-- What resolution comes to, for every class that has an order. If the class hides the method,
that is the end, whatever its ancestors are. Otherwise, with the ancestors that the scope shows
under the names of the order, the first class that offers the method answers; else the first
handler; and else the failure says whether the method is hidden or is not there. Only a handler acts
on the host. -/
theorem resolution_exact {w : World β σ} {c : ClassId} {scope : Scope} {order : List String}
    (available : ((c.linearization scope).run w.store).1 = .ok order) (name : String)
    (caller : Caller) (supply : Resolution.Supply β σ) :
    let own := w.store.classOf c
    let ordered : World β σ := { w with store := ((c.linearization scope).run w.store).2 }
    let answer := (c.resolve supply scope name caller).run w
    (own.Hides name caller → answer = (.error (.inaccessible .memberFunction name),ordered)) ∧
    ∀ ancestors, List.Forall₂ (scope.Shows w.store) order.tail ancestors →
      ¬own.Hides name caller →
      let line := own :: ancestors.map w.store.classOf
      ((∃ d ∈ line, ∃ f, d.Offers name caller f) →
        ∃ d f, First (fun d => ∃ f, d.Offers name caller f) line d ∧ d.Offers name caller f ∧
          answer = (.ok f,ordered)) ∧
      ((∀ d ∈ line, ¬∃ f, d.Offers name caller f) →
        ((∃ d ∈ line, d.fallback ≠ none) →
          ∃ d handler, First (·.fallback ≠ none) line d ∧ d.fallback = some handler ∧
            answer = match (supply handler name caller).run w.host with
              | (.ok f,host) => (.ok (if f.kind = .free then { f with kind := .method } else f),
                  { ordered with host })
              | (.error e,host) => (.error e,{ ordered with host })) ∧
        ((∀ d ∈ line, d.fallback = none) →
          ((∃ d ∈ line, d.Hides name caller) →
            answer = (.error (.inaccessible .memberFunction name),ordered)) ∧
          ((∀ d ∈ line, ¬d.Hides name caller) →
            answer = (.error (.notFound .memberFunction name),ordered)))) := by
  intro own ordered answer
  have settled : answer = (World.onHost (Resolution.settle supply name caller (Resolution.search own
      (Resolution.visibleAncestors w.store (some scope) order) name caller))).run ordered :=
    ClassId.run_resolve_of_ok available supply
  constructor
  · intro hides
    rw [settled,Resolution.search_eq_denied_iff.mpr (.inl hides)]
    rfl
  intro ancestors shows allowed line
  rw [Resolution.visibleAncestors_of_shows shows] at settled
  have unrefused : own.offer name caller ≠ .denied :=
    fun refused => allowed (Class.offer_eq_denied_iff_hides.mp refused)
  refine ⟨fun offered => ?_,fun unoffered => ?_⟩
  · simp only [← Class.offered?_ne_none_iff] at offered ⊢
    obtain ⟨d,f,first,offers,found⟩ := exists_first offered
    refine ⟨d,f,first,Class.offered?_eq_some_iff_offers.mp offers,?_⟩
    rw [settled,Resolution.search_eq_found_iff.mpr ⟨unrefused,found⟩]
    rfl
  have unfound : line.findSome? (·.offered? name caller) = none :=
    List.findSome?_eq_none_iff.mpr fun d member =>
      not_not.mp (mt Class.offered?_ne_none_iff.mp (unoffered d member))
  refine ⟨fun handled => ?_,fun unhandled => ?_⟩
  · obtain ⟨d,handler,first,installed,found⟩ := exists_first handled
    refine ⟨d,handler,first,installed,?_⟩
    rw [settled,Resolution.search_eq_consult_iff.mpr ⟨unrefused,unfound,found⟩]
    exact Resolution.run_settle_consult supply handler ordered
  have unsupplied : line.findSome? (·.fallback) = none := List.findSome?_eq_none_iff.mpr unhandled
  constructor
  · rintro ⟨d,member,hides⟩
    -- The class itself does not hide it, so it is an ancestor that does.
    have further : d ∈ ancestors.map w.store.classOf := by
      rcases List.mem_cons.mp member with rfl | further
      · exact absurd hides allowed
      · exact further
    rw [settled,Resolution.search_eq_denied_iff.mpr (.inr ⟨unfound,unsupplied,d,further,hides⟩)]
    rfl
  · intro unhidden
    rw [settled,Resolution.search_eq_missing_iff.mpr ⟨unfound,unsupplied,unhidden⟩]
    rfl

/-! A line of three classes. The last one has a method and a handler, the middle one makes two
methods private, and the first one a third. -/
namespace Switchboard

def method (name : String) : Function Unit := { name, body := .native () }

def top : Class Unit :=
  { Class.declareFunction { name := "A", modulePath := "m" } (method "RUN") .shown with
    fallback := some () }

def middle : Class Unit :=
  (Class.declareFunction { name := "B", modulePath := "m", parents := ["A"] } (method "RUN")
    .hidden).declareFunction (method "HUSH") .hidden

def bottom : Class Unit :=
  Class.declareFunction { name := "C", modulePath := "m", parents := ["B"] } (method "OWN") .hidden

def world : World Unit Unit :=
  World.first.play .idle
    [.ask Runtime.first.globalContext (.defineClass top),
      .ask Runtime.first.globalContext (.defineClass middle),
      .ask Runtime.first.globalContext (.defineClass bottom)]

def supply : Resolution.Supply Unit Unit := fun _ name _ => pure (method name)

def answer (name : String) : Except Error (Function Unit) :=
  ((ClassId.resolve supply ⟨2⟩ Runtime.first.global name .outside).run world).1

theorem shows : List.Forall₂ (Runtime.first.global.Shows world.store) ["m.B","m.A"] [⟨1⟩,⟨0⟩] :=
  .cons ⟨rfl,rfl⟩ (.cons ⟨rfl,rfl⟩ .nil)

end Switchboard

/-- What the first class hides stays hidden though there is a handler; what the middle one hides is
found behind it, or left to the handler. -/
theorem resolution_exact_switchboard :
    Switchboard.answer "OWN" = .error (.inaccessible .memberFunction "OWN") ∧
    (∃ d f, First (fun d => ∃ f, d.Offers "RUN" .outside f)
        [Switchboard.bottom,Switchboard.middle,Switchboard.top] d ∧ d.Offers "RUN" .outside f ∧
      Switchboard.answer "RUN" = .ok f) ∧
    Switchboard.answer "HUSH" = .ok ((Switchboard.method "HUSH").withKind .method) := by
  have available : ((ClassId.linearization ⟨2⟩ Runtime.first.global).run
      Switchboard.world.store).1 = .ok ["m.C","m.B","m.A"] := rfl
  have rule := fun name => resolution_exact available name .outside Switchboard.supply
  have beyond := fun name allowed => (rule name).2 [⟨1⟩,⟨0⟩] Switchboard.shows allowed
  have listed : Switchboard.top ∈ [Switchboard.bottom,Switchboard.middle,Switchboard.top] :=
    List.mem_cons_of_mem _ (List.mem_cons_of_mem _ List.mem_cons_self)
  refine ⟨?_,?_,?_⟩
  · exact congrArg Prod.fst ((rule "OWN").1 ⟨rfl,nofun,nofun⟩)
  · obtain ⟨d,f,first,offers,answered⟩ := (beyond "RUN" fun hides => hides.hidden rfl).1
      ⟨Switchboard.top,listed,_,.shown rfl⟩
    exact ⟨d,f,first,offers,congrArg Prod.fst answered⟩
  · have unoffered : ∀ d ∈ [Switchboard.bottom,Switchboard.middle,Switchboard.top],
        ¬∃ f, d.Offers "HUSH" .outside f := by
      simp only [List.forall_mem_cons,← Class.offered?_ne_none_iff]
      exact ⟨not_not.mpr rfl,not_not.mpr rfl,not_not.mpr rfl,nofun⟩
    obtain ⟨d,handler,_,_,answered⟩ := ((beyond "HUSH" fun hides => hides.hidden rfl).2 unoffered).1
      ⟨Switchboard.top,listed,nofun⟩
    exact congrArg Prod.fst answered

end ObjectModel
