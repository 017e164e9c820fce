import ObjectModel.Proofs.Journal

/-! Where the contexts of a run come from. Every context that occurs in a journal derives from the
one where the run began, by blocks, forks and invocations: it has a scope that is the same or was
opened on the way, and a depth that counts the invocations between them, unless a fork made it
start anew. -/
namespace ObjectModel

variable {β σ : Type}

/-- A context derives from another one at a time when there were so many scopes: its scope is the
same or a new one, and its depth is that of the other one and of the invocations between them,
unless it was forked off. -/
structure Context.Derives (ctx : Context) (size frames : Nat) (forked : Bool) (inner : Context) :
    Prop where
  runtime : inner.runtime = ctx.runtime
  scope : inner.scope = ctx.scope ∨ size ≤ inner.scope.index
  depth : forked = false → inner.depth = ctx.depth + frames
  bounded : ctx.depth ≤ ctx.runtime.maxCallDepth → inner.depth ≤ ctx.runtime.maxCallDepth

namespace Context

theorem Derives.refl (ctx : Context) (size : Nat) : ctx.Derives size 0 false ctx :=
  ⟨rfl,.inl rfl,fun _ => rfl,id⟩

theorem Derives.trans {ctx mid inner : Context} {size later frames more : Nat}
    {forked again : Bool} (first : ctx.Derives size frames forked mid)
    (second : mid.Derives later more again inner) (grown : size ≤ later) :
    ctx.Derives size (frames + more) (forked || again) inner where
  runtime := second.runtime.trans first.runtime
  scope := by
    rcases second.scope with same | new
    · rw [same]
      exact first.scope
    · exact .inr (Nat.le_trans grown new)
  depth plain := by
    obtain ⟨here,there⟩ := Bool.or_eq_false_iff.mp plain
    rw [second.depth there,first.depth here,Nat.add_assoc]
  bounded within := by
    have between := first.bounded within
    rw [← first.runtime] at between ⊢
    exact second.bounded between

end Context

theorem Opening.derives (opening : Opening) (caller : Option Caller) (ctx : Context)
    (store : Store β) :
    ctx.Derives store.frames.size 0 (opening == .fork) (opening.enter caller ctx store).1 := by
  cases opening <;> cases caller
  case child.none | child.some => exact ⟨rfl,.inr (Nat.le_refl _),fun _ => rfl,id⟩
  case fork.none | fork.some => exact ⟨rfl,.inr (Nat.le_refl _),nofun,fun _ => Nat.zero_le _⟩

def Context.Accounts (ctx : Context) (size : Nat) (entries : List (Entry β σ)) : Prop :=
  ∀ entry ∈ entries, ∀ inner, entry.event.context? = some inner →
    ctx.Derives size entry.frames entry.forked inner

namespace Context

variable {ctx mid : Context} {size later : Nat} {entries : List (Entry β σ)}

theorem Accounts.cons {entry : Entry β σ}
    (first : ∀ inner, entry.event.context? = some inner →
      ctx.Derives size entry.frames entry.forked inner)
    (second : ctx.Accounts size entries) : ctx.Accounts size (entry :: entries) := by
  intro other member
  rcases List.mem_cons.mp member with rfl | late
  · exact first
  · exact second other late

theorem Accounts.ask (accounts : ctx.Accounts size entries) (request : Request β) :
    ctx.Accounts size (.ask ctx request :: entries) := by
  refine accounts.cons fun inner same => ?_
  obtain rfl := Option.some.inj same
  exact .refl ctx size

theorem Accounts.within {frames : Nat} {forked : Bool} (accounts : mid.Accounts later entries)
    (derives : ctx.Derives size frames forked mid) (grown : size ≤ later) :
    ctx.Accounts size (entries.map (·.within frames forked)) := by
  intro entry member inner same
  obtain ⟨seen,present,rfl⟩ := List.mem_map.mp member
  exact derives.trans (accounts seen present inner same) grown

/-- What is derived from a context later is derived from it now. -/
theorem Accounts.earlier (accounts : ctx.Accounts later entries) (grown : size ≤ later) :
    ctx.Accounts size entries := by
  intro entry member inner same
  have derives := (Derives.refl ctx size).trans (accounts entry member inner same) grown
  simpa using derives

end Context

def Journal.Accounts (journal : Journal β σ) : Prop :=
  ∀ (ctx : Context) (p : Program β σ) (w : World β σ),
    ctx.Accounts w.store.frames.size (journal ctx p w)

section

variable {host : Host β σ} {enter : Enter β σ} {journal : Journal β σ}

namespace Context

theorem inner_of_prelude {ctx inner : Context} {f : Function β} {receiver : Option Object}
    {arguments : List Value} {w left : World β σ} {p : Program β σ}
    (entered : ctx.prelude host f receiver arguments w = .entered inner p left) :
    inner = (ctx.callee (receiverFor f.kind receiver) w.store).1 := by
  unfold prelude at entered
  cases binds : f.bindArguments w.store arguments with
  | error e => simp [binds] at entered
  | ok bound =>
    simp only [binds] at entered
    split at entered
    · contradiction
    · split at entered
      · exact (Prelude.entered.inj entered).1.symm
      · split at entered
        · contradiction
        · split at entered
          · exact (Prelude.entered.inj entered).1.symm
          · contradiction

end Context

namespace Call

end Call

end

end ObjectModel
