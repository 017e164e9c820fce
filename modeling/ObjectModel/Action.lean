import ObjectModel.Store

/-! Computations that change a state and may fail. A failure keeps the state it was reached
in, so what a failing operation has done stays visible. Programs run in a world, which is a store
with the state of the host beside it. -/
namespace ObjectModel

def Action (S α : Type) : Type := S → Except Error α × S

namespace Action

variable {S α γ : Type}

def run (a : Action S α) (s : S) : Except Error α × S := a s

def fail (e : Error) : Action S α := fun s => (.error e, s)

def ofExcept (r : Except Error α) : Action S α := fun s => (r, s)

def get : Action S S := fun s => (.ok s, s)

def read (f : S → Except Error α) : Action S α := fun s => (f s, s)

/-- Replaces the state and gives a result; it cannot fail. -/
def update (f : S → α × S) : Action S α := fun s =>
  let (a, s') := f s
  (.ok a, s')

def modify (f : S → S) : Action S Unit := fun s => (.ok (), f s)

instance : Monad (Action S) where
  pure a := fun s => (.ok a, s)
  bind a f := fun s =>
    match a s with
    | (.ok x, s') => f x s'
    | (.error e, s') => (.error e, s')

@[simp] theorem run_pure (a : α) (s : S) : (pure a : Action S α).run s = (.ok a, s) := rfl

@[simp] theorem run_fail (e : Error) (s : S) : (fail e : Action S α).run s = (.error e, s) := rfl

@[simp] theorem run_ofExcept (r : Except Error α) (s : S) : (ofExcept r).run s = (r, s) := rfl

@[simp] theorem run_get (s : S) : (get : Action S S).run s = (.ok s, s) := rfl

@[simp] theorem run_read (f : S → Except Error α) (s : S) : (read f).run s = (f s, s) := rfl

@[simp] theorem run_update (f : S → α × S) (s : S) :
    (update f).run s = (.ok (f s).1, (f s).2) := rfl

@[simp] theorem run_modify (f : S → S) (s : S) : (modify f).run s = (.ok (), f s) := rfl

theorem run_bind (a : Action S α) (f : α → Action S γ) (s : S) :
    (a >>= f).run s =
      match a.run s with
      | (.ok x, s') => (f x).run s'
      | (.error e, s') => (.error e, s') := rfl

end Action

structure World (β σ : Type) where
  store : Store β
  host : σ

namespace World

variable {α β σ : Type}

def onStore (a : Action (Store β) α) : Action (World β σ) α := fun w =>
  let (result, store) := a w.store
  (result, { w with store })

def onHost (a : Action σ α) : Action (World β σ) α := fun w =>
  let (result, host) := a w.host
  (result, { w with host })

end World
end ObjectModel
