import ObjectModel.Proofs.Declaration
import ObjectModel.Proofs.History
import ObjectModel.Proofs.Recording

/-! What a search for a method finds. A class refuses exactly what it has as a private method only,
and to others only. A search finds the first method offered, unless its first class refuses; and
once the order of a class is recorded, a resolution is such a search. -/
namespace ObjectModel

variable {β σ : Type}

namespace Class

variable {c : Class β} {name : String} {caller : Caller} {f : Function β}

def offered? (c : Class β) (name : String) (caller : Caller) : Option (Function β) :=
  match c.offer name caller with
  | .found f => some f
  | .denied | .missing => none

theorem offered?_eq_some_iff :
    c.offered? name caller = some f ↔ c.offer name caller = .found f := by
  unfold offered?
  cases c.offer name caller <;> simp

/-- A class refuses a method exactly if it has it as a private one only and the caller is
another. -/
theorem offer_eq_denied_iff :
    c.offer name caller = .denied ↔ c.publicFunctions.get? name = none ∧
      c.privateFunctions.get? name ≠ none ∧ caller ≠ c.identity := by
  unfold offer
  cases c.publicFunctions.get? name with
  | some f => simp
  | none =>
    cases c.privateFunctions.get? name with
    | some f => by_cases own : caller = c.identity <;> simp_all [Caller.is,identity]
    | none => cases c.sharedFunctions.get? name <;> simp

theorem Orderly.name_of_offered (orderly : c.Orderly) (offered : c.offered? name caller = some f) :
    f.name = name := by
  rw [offered?_eq_some_iff] at offered
  unfold offer at offered
  split at offered
  next found =>
    obtain rfl := Offer.found.inj offered
    exact orderly.publicFunctions name _ found
  next =>
    split at offered
    next found =>
      split at offered
      next =>
        obtain rfl := Offer.found.inj offered
        exact orderly.privateFunctions name _ found
      next => contradiction
    next =>
      split at offered
      next found =>
        obtain rfl := Offer.found.inj offered
        exact orderly.sharedFunctions name _ found
      next => contradiction

end Class

namespace Resolution

variable {own : Class β} {classes : List (Class β)} {name : String} {caller : Caller}
  {f : Function β}

theorem firstOffer_eq_found_iff {denied : Bool} :
    firstOffer name caller classes denied = .found f ↔
      classes.findSome? (·.offered? name caller) = some f := by
  induction classes generalizing denied with
  | nil => cases denied <;> simp [firstOffer]
  | cons c rest ih =>
    rw [firstOffer,List.findSome?_cons,Class.offered?]
    cases c.offer name caller with
    | found g => simp
    | denied => exact ih
    | missing => exact ih

/-- A class that does not refuse leaves the search to the first class that offers the method. -/
theorem search_eq_found_iff :
    search own classes name caller = .found f ↔ own.offer name caller ≠ .denied ∧
      (own :: classes).findSome? (·.offered? name caller) = some f := by
  rw [search]
  cases offer : own.offer name caller with
  | found g => simp [Class.offered?,offer]
  | denied => simp
  | missing =>
    have passed : (own :: classes).findSome? (·.offered? name caller) =
        classes.findSome? (·.offered? name caller) := by
      simp [Class.offered?,offer]
    rw [passed,← @firstOffer_eq_found_iff β classes name caller f false]
    cases firstOffer name caller classes false with
    | found g => simp
    | denied | missing => cases (own :: classes).findSome? (·.fallback) <;> simp

theorem search_eq_consult_iff {handler : β} :
    search own classes name caller = .consult handler ↔ own.offer name caller ≠ .denied ∧
      (own :: classes).findSome? (·.offered? name caller) = none ∧
      (own :: classes).findSome? (·.fallback) = some handler := by
  rw [search]
  cases offer : own.offer name caller with
  | found g => simp [Class.offered?,offer]
  | denied => simp
  | missing =>
    have passed : (own :: classes).findSome? (·.offered? name caller) =
        classes.findSome? (·.offered? name caller) := by
      simp [Class.offered?,offer]
    rw [passed]
    cases first : firstOffer name caller classes false with
    | found g => simp [firstOffer_eq_found_iff.mp first]
    | denied | missing =>
      have unoffered : classes.findSome? (·.offered? name caller) = none := by
        refine Option.eq_none_iff_forall_ne_some.mpr fun g offered => ?_
        rw [← @firstOffer_eq_found_iff β classes name caller g false,first] at offered
        contradiction
      cases (own :: classes).findSome? (·.fallback) <;> simp [unoffered]

end Resolution

namespace ClassId

variable {c : ClassId} {w : World β σ} {scope : Scope} {order : List String} {name : String}
  {caller : Caller} {f : Function β}

/-- The class resolves the method without a handler, and so whatever a handler would supply. -/
def Finds (c : ClassId) (w : World β σ) (scope : Scope) (name : String) (caller : Caller)
    (f : Function β) : Prop :=
  ∀ supply, ((c.resolve supply scope name caller).run w).1 = .ok f

/-- A class that has an order resolves a method by a search along it, and settles in the world
that the computation of the order leaves. -/
theorem run_resolve_of_ok (available : ((c.linearization scope).run w.store).1 = .ok order)
    (supply : Resolution.Supply β σ) :
    (c.resolve supply scope name caller).run w =
      (World.onHost (Resolution.settle supply name caller (Resolution.search (w.store.classOf c)
        (Resolution.visibleAncestors w.store (some scope) order) name caller))).run
        { w with store := ((c.linearization scope).run w.store).2 } := by
  rw [resolve,Action.run_bind,World.run_onStore]
  simp only [available]
  rfl

theorem run_resolve_of_error {e : Error}
    (unavailable : ((c.linearization scope).run w.store).1 = .error e)
    (supply : Resolution.Supply β σ) :
    (c.resolve supply scope name caller).run w =
      (.error e,{ w with store := ((c.linearization scope).run w.store).2 }) := by
  rw [resolve,Action.run_bind,World.run_onStore]
  simp only [unavailable]

theorem run_resolve (known : c.recorded? w.store = some order)
    (supply : Resolution.Supply β σ) :
    ((c.resolve supply scope name caller).run w).1 =
      ((Resolution.settle supply name caller (Resolution.search (w.store.classOf c)
        (Resolution.visibleAncestors w.store (some scope) order) name caller)).run w.host).1 := by
  rw [run_resolve_of_ok (by rw [linearization_of_recorded known])]
  rfl

theorem finds_iff (known : c.recorded? w.store = some order) :
    c.Finds w scope name caller f ↔
      Resolution.search (w.store.classOf c)
        (Resolution.visibleAncestors w.store (some scope) order) name caller = .found f := by
  constructor
  · intro finds
    have settled := (run_resolve known Resolution.refuse).symm.trans (finds Resolution.refuse)
    cases verdict : Resolution.search (w.store.classOf c)
        (Resolution.visibleAncestors w.store (some scope) order) name caller with
    | found g => simpa [verdict,Resolution.settle] using settled
    | denied | missing => simp [verdict,Resolution.settle] at settled
    | consult handler =>
      simp [verdict,Resolution.settle,Resolution.refuse,Action.run_bind] at settled
  · intro found supply
    rw [run_resolve known,found]
    rfl

end ClassId
end ObjectModel
