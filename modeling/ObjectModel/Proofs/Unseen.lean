import ObjectModel.Proofs.Home
import ObjectModel.Proofs.MethodSearch

/-! Resolution from a scope that does not see every ancestor. The order of a class is recorded once
for all scopes, so a scope may search along an order whose entries it sees only in part. An entry
that it does not see is passed over without a word: the answer is that of the order without it. So
what stands behind such an entry answers exactly if nothing before it does, be it with a method
that the unseen class overrides. An instance of the class is refused in the same place. -/
namespace ObjectModel

variable {β σ : Type}

namespace Resolution

variable {own : Class β} {near far : List (Class β)} {name : String} {caller : Caller}

/-- The answer comes from the farther classes: the first method offered is one of theirs, or the
first handler is. -/
inductive Beyond (near far : List (Class β)) (name : String) (caller : Caller) :
    Verdict β → Prop where
  | method {f : Function β} (passed : near.findSome? (·.offered? name caller) = none)
      (offered : far.findSome? (·.offered? name caller) = some f) :
      Beyond near far name caller (.found f)
  | handler {handler : β} (passed : near.findSome? (·.fallback) = none)
      (installed : far.findSome? (·.fallback) = some handler) :
      Beyond near far name caller (.consult handler)

/-- A search gets an answer from farther classes exactly if its own class does not refuse, no nearer
class offers the method, and a farther one offers it or has the first handler. -/
theorem search_beyond_iff :
    Beyond (own :: near) far name caller (search own (near ++ far) name caller) ↔
      own.offer name caller ≠ .denied ∧
      (own :: near).findSome? (·.offered? name caller) = none ∧
      (far.findSome? (·.offered? name caller) ≠ none ∨
        (own :: near).findSome? (·.fallback) = none ∧ far.findSome? (·.fallback) ≠ none) := by
  have found := @search_eq_found_iff β own (near ++ far) name caller
  have consulted := @search_eq_consult_iff β own (near ++ far) name caller
  simp only [← List.cons_append,List.findSome?_append] at found consulted
  constructor
  · intro beyond
    generalize verdict : search own (near ++ far) name caller = answer at beyond
    cases beyond with
    | method passed offered =>
      exact ⟨(found.mp verdict).1,passed,.inl (by simp [offered])⟩
    | handler passed installed =>
      obtain ⟨allowed,unoffered,_⟩ := consulted.mp verdict
      exact ⟨allowed,(Option.or_eq_none_iff.mp unoffered).1,.inr ⟨passed,by simp [installed]⟩⟩
  · rintro ⟨allowed,passed,answered⟩
    cases offered : far.findSome? (·.offered? name caller) with
    | some f =>
      have first : ((own :: near).findSome? (·.offered? name caller)).or
          (far.findSome? (·.offered? name caller)) = some f := by
        rw [passed,offered,Option.none_or]
      rw [found.mpr ⟨allowed,first⟩]
      exact .method passed offered
    | none =>
      obtain ⟨unhandled,installed⟩ := answered.resolve_left (absurd offered)
      obtain ⟨handler,installed⟩ := Option.ne_none_iff_exists'.mp installed
      have unoffered : ((own :: near).findSome? (·.offered? name caller)).or
          (far.findSome? (·.offered? name caller)) = none := by
        rw [passed,offered,Option.none_or]
      have first : ((own :: near).findSome? (·.fallback)).or (far.findSome? (·.fallback)) =
          some handler := by
        rw [unhandled,installed,Option.none_or]
      rw [consulted.mpr ⟨allowed,unoffered,first⟩]
      exact .handler unhandled installed

def seen (store : Store β) (scope : Scope) (entries : List String) : List (Class β) :=
  entries.filterMap fun entry => (scope.lookupClass store entry).toOption.map store.classOf

theorem visibleAncestors_cons (store : Store β) (scope : Scope) (head : String)
    (entries : List String) :
    visibleAncestors store (some scope) (head :: entries) = seen store scope entries := by
  refine List.filterMap_congr fun entry _ => ?_
  cases scope.lookupClass store entry <;> rfl

theorem seen_unseen {store : Store β} {scope : Scope} {entry : String} {e : Error}
    (unseen : scope.lookupClass store entry = .error e) (front back : List String) :
    seen store scope (front ++ entry :: back) =
      seen store scope front ++ seen store scope back := by
  simp [seen,unseen,Except.toOption]

end Resolution

open Resolution in
/-- Resolution passes over an entry that the scope does not see. Something behind the entry answers
exactly if the class does not refuse, no class that is seen before the entry offers the method, and
one behind it offers it or has the first handler. -/
theorem resolve_past_unseen_iff {w : World β σ} {c : ClassId} {scope : Scope} {head entry : String}
    {front back : List String} {e : Error}
    (available : ((c.linearization scope).run w.store).1 = .ok (head :: (front ++ entry :: back)))
    (unseen : scope.lookupClass w.store entry = .error e) (name : String) (caller : Caller) :
    (∀ supply, ((c.resolve supply scope name caller).run w).1 =
      ((settle supply name caller (search (w.store.classOf c)
        (seen w.store scope front ++ seen w.store scope back) name caller)).run w.host).1) ∧
    (Beyond (w.store.classOf c :: seen w.store scope front) (seen w.store scope back) name caller
        (search (w.store.classOf c) (seen w.store scope front ++ seen w.store scope back) name
          caller) ↔
      (w.store.classOf c).offer name caller ≠ .denied ∧
      (w.store.classOf c :: seen w.store scope front).findSome? (·.offered? name caller) = none ∧
      ((seen w.store scope back).findSome? (·.offered? name caller) ≠ none ∨
        (w.store.classOf c :: seen w.store scope front).findSome? (·.fallback) = none ∧
          (seen w.store scope back).findSome? (·.fallback) ≠ none)) := by
  refine ⟨fun supply => ?_,search_beyond_iff⟩
  rw [ClassId.run_resolve_of_ok available,visibleAncestors_cons,seen_unseen unseen]
  rfl

/-! A class in the global scope whose parent is defined in a scope inside, where it overrides a
method of a class in the global scope. -/
namespace Veiled

def inner : Scope := ⟨1⟩

def override : Function Unit := { Diamond.method with documentation := ["again"] }

def middle : Class Unit :=
  Class.declareFunction { name := "B", modulePath := "k", parents := ["A"] } override .shown

def moves : List (Move Unit) :=
  [.ask Runtime.first.globalContext (.defineClass Diamond.top),
    .ask Runtime.first.globalContext
      (.defineClass { name := "C", modulePath := "m", parents := ["B"] }),
    .enter Runtime.first.global,
    .ask { runtime := .first, scope := inner } (.defineClass middle),
    .ask { runtime := .first, scope := inner } (.linearize ⟨1⟩)]

def world : World Unit Unit := World.first.play .idle moves

def bottom : ClassId := ⟨1⟩

end Veiled

theorem resolve_past_unseen_iff_veiled :
    Resolution.Beyond [Veiled.world.store.classOf Veiled.bottom] [Diamond.top] "RUN" .outside
      (Resolution.search (Veiled.world.store.classOf Veiled.bottom) [Diamond.top] "RUN" .outside) ∧
    ((Veiled.bottom.resolve Resolution.refuse Runtime.first.global "RUN" .outside).run
      Veiled.world).1 = .ok Diamond.method.asMethod := by
  have past := resolve_past_unseen_iff
    (show ((Veiled.bottom.linearization Runtime.first.global).run Veiled.world.store).1 =
      .ok ("m.C" :: ([] ++ "k.B" :: ["m.A"])) from rfl)
    (show Runtime.first.global.lookupClass Veiled.world.store "k.B" =
      .error (.notFound .classDefinition "k.B") from rfl) "RUN" .outside
  exact ⟨past.2.mpr ⟨nofun,rfl,.inl nofun⟩,past.1 Resolution.refuse⟩

/-- From a scope that does not see the class which overrides a method, the overridden method is
found, while an instance is refused. -/
theorem override_passed_over :
    World.Reaches .idle (fun _ _ => True) .first Veiled.world ∧
    Veiled.bottom.recorded? Veiled.world.store = some ["m.C","k.B","m.A"] ∧
    Runtime.first.global.lookupClass Veiled.world.store "k.B" =
      .error (.notFound .classDefinition "k.B") ∧
    ((Veiled.bottom.resolve Resolution.refuse Runtime.first.global "RUN" .outside).run
      Veiled.world).1 = .ok Diamond.method.asMethod ∧
    ((Veiled.bottom.resolve Resolution.refuse Veiled.inner "RUN" .outside).run
      Veiled.world).1 = .ok Veiled.override.asMethod ∧
    ((Veiled.bottom.instantiate Runtime.first.global).run Veiled.world.store).1 =
      .error (.notFound .classDefinition "k.B") := by
  refine ⟨World.Reaches.start.play ?_,rfl,rfl,rfl,rfl,rfl⟩
  exact ⟨trivial,trivial,trivial,trivial,trivial,trivial⟩

end ObjectModel
