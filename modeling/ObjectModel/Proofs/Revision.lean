import ObjectModel.Proofs.Membership

/-! What events do to class definitions. A class comes in by the request that defines or makes it.
After that its parents may be replaced and the variables that it shares assigned, each by one kind
of request, and nothing else about it ever changes. So classes stay as they were declared, and every
order that is recorded begins with the class it is recorded for. -/
namespace ObjectModel

variable {β σ : Type}

/-- The classes that an event brings in are declared as such, and it asks for the order of a class
only if there is one. -/
def Event.Proper : List (Store β) → Event β σ → Prop
  | store :: _, e => (∀ c, e.Introduces c → c.Declared) ∧
    ∀ c, e.linearizes? store = some c → c.index < store.classes.size
  | [], _ => True

theorem head_of_records {store : Store β} {scope : Scope} {met : ClassId → Prop}
    {memo later : Memo} (steps : Relation.ReflTransGen (Records store scope met) memo later)
    {c : ClassId} {order : List String} (known : later.get? c = some order) :
    memo.get? c = some order ∨ met c ∧ order.head? = some (store.classOf c).qualifiedName := by
  induction steps with
  | refl => exact .inl known
  | tail _ step ih =>
    obtain ⟨reached,fresh,inherits,_⟩ := step
    rcases Memo.get?_record_cases fresh known with ⟨rfl,rfl⟩ | old
    · obtain ⟨rest,rfl,_⟩ := inherits.merged
      exact .inr ⟨reached,rfl⟩
    · exact ih old

namespace Store

/-- Scopes name classes properly, classes are as declared, and every recorded order begins with its
class. -/
structure Sound (store : Store β) : Prop where
  labelled : store.Labelled
  orderly : ∀ c, (store.classOf c).Orderly
  headed : ∀ c order, store.memo.get? c = some order →
    c.index < store.classes.size ∧ order.head? = some (store.classOf c).qualifiedName

variable {store later : Store β}

theorem sound_empty : (empty : Store β).Sound where
  labelled := nofun
  orderly _ := (Class.Declared.new "" "" []).orderly
  headed := nofun

theorem Sound.head (sound : store.Sound) {c : ClassId} {scope : Scope} {order : List String}
    (computed : ((c.linearization scope).run store).1 = .ok order) :
    order.head? = some (store.classOf c).qualifiedName := by
  have met : ∀ name d, scope.lookupClass store name = .ok d → (fun _ => True) d :=
    fun _ _ _ => trivial
  obtain ⟨steps,known⟩ := ClassId.linearization_records met c trivial
  rcases head_of_records steps (known order computed) with old | new
  · exact (sound.headed c order old).2
  · exact new.2

/-- What a linearization records begins with its class, if the class it is asked for is there. -/
theorem Sound.linearization (sound : store.Sound) {c : ClassId} (scope : Scope)
    (present : c.index < store.classes.size) : ((c.linearization scope).run store).2.Sound where
  labelled := sound.labelled
  orderly := sound.orderly
  headed d order known := by
    have allotted : ∀ name d, scope.lookupClass store name = .ok d →
        d.index < store.classes.size := by
      intro name d found
      obtain ⟨home,bound⟩ := Scope.exists_of_lookupClass found
      exact (sound.labelled home name d bound).1
    rcases head_of_records (ClassId.linearization_records allotted c present).1 known with
      old | new
    · exact sound.headed d order old
    · exact new

end Store

theorem Event.sound {host : Host β σ} {past : List (Store β)} {w : World β σ} {e : Event β σ}
    (sound : w.store.Sound) (proper : e.Proper (w.store :: past)) :
    (e.perform host w).store.Sound := by
  have alters := e.alters host w
  have headed : ∀ c order, (e.perform host w).store.memo.get? c = some order →
      c.index < w.store.classes.size ∧ order.head? = some (w.store.classOf c).qualifiedName := by
    rcases alters.memo with same | ⟨c,scope,asked,same⟩ <;> rw [same]
    · exact sound.headed
    · exact (sound.linearization scope (proper.2 c asked)).headed
  refine ⟨alters.labelled sound.labelled,fun c => ?_,fun c order known => ?_⟩
  · rcases alters.classOf c with ⟨_,_,body,_⟩ | ⟨_,d,_,_,introduced,body⟩ <;> rw [body]
    · exact { sound.orderly c with }
    · exact { (proper.1 d introduced).orderly with }
  · -- A class that was there keeps its name, and a new one has no order recorded yet.
    obtain ⟨present,head⟩ := headed c order known
    refine ⟨Nat.lt_of_lt_of_le present alters.grows.classes,?_⟩
    rcases alters.classOf c with ⟨_,_,body,_⟩ | ⟨absent,_⟩
    · rw [body]
      exact head
    · exact absurd present (Nat.not_lt_of_le absent)

theorem World.Attains.sound {host : Host β σ} {state : σ} {past : List (Store β)} {w : World β σ}
    (attained : Attains host Event.Proper ⟨.empty,state⟩ past w) : w.store.Sound :=
  attained.holds (fun _ store => store.Sound) (fun _ _ _ sound proper => Event.sound sound proper)
    Store.sound_empty

end ObjectModel
