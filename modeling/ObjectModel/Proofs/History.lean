import ObjectModel.Execution

/-! Histories of a world. A move opens a scope or carries out a request of some context, whatever
comes of it; a rule says which moves may be made in which store. -/
namespace ObjectModel

variable {β σ : Type}

inductive Move (β : Type) where
  | enter (outer : Scope)
  | ask (ctx : Context) (request : Request β)

def Move.perform (host : Host β σ) (w : World β σ) : Move β → World β σ
  | .enter outer => { w with store := (w.store.child outer).2 }
  | .ask ctx request => ((request.perform host ctx).run w).2

namespace World

theorem run_onStore {α : Type} (a : Action (Store β) α) (w : World β σ) :
    (onStore a).run w = ((a.run w.store).1,{ w with store := (a.run w.store).2 }) := rfl

/-- The worlds that moves lead to from a start, each made where the rule admits it. -/
inductive Reaches (host : Host β σ) (rule : Store β → Move β → Prop) (start : World β σ) :
    World β σ → Prop where
  | start : Reaches host rule start start
  | move {w : World β σ} {m : Move β} (before : Reaches host rule start w)
      (admitted : rule w.store m) : Reaches host rule start (m.perform host w)

def play (host : Host β σ) (w : World β σ) (moves : List (Move β)) : World β σ :=
  moves.foldl (fun w m => m.perform host w) w

def Permits (host : Host β σ) (rule : Store β → Move β → Prop) (w : World β σ) :
    List (Move β) → Prop
  | [] => True
  | m :: rest => rule w.store m ∧ Permits host rule (m.perform host w) rest

variable {host : Host β σ} {rule : Store β → Move β → Prop} {start w : World β σ}

theorem Reaches.play {moves : List (Move β)} (reached : Reaches host rule start w)
    (permitted : Permits host rule w moves) : Reaches host rule start (w.play host moves) := by
  induction moves generalizing w with
  | nil => exact reached
  | cons m rest ih => exact ih (reached.move permitted.1) permitted.2

end World

/-- Resolution computes a linearization and leaves the rest of the store alone. -/
theorem ClassId.store_resolve (supply : Resolution.Supply β σ) (c : ClassId) (scope : Scope)
    (name : String) (caller : Caller) (w : World β σ) :
    ((c.resolve supply scope name caller).run w).2.store =
      ((c.linearization scope).run w.store).2 := by
  rw [ClassId.resolve,Action.run_bind,World.run_onStore]
  rcases (c.linearization scope).run w.store with ⟨_ | order,next⟩ <;> rfl

/-- An instance is made where the order of its class is found and its members can be laid out. -/
theorem ClassId.eq_addObject_of_instantiate {c : ClassId} {scope : Scope} {store later : Store β}
    {o : Object} (made : (c.instantiate scope).run store = (.ok o,later)) :
    ∃ hierarchy members, ((c.linearization scope).run store).1 = .ok hierarchy ∧
      ClassId.layout ((c.linearization scope).run store).2 scope c hierarchy.reverse .empty =
        .ok members ∧
      (o,later) = ((c.linearization scope).run store).2.addObject
        { definition := c, scope := some scope, hierarchy, members } := by
  simp only [ClassId.instantiate,Action.run_bind,Action.run_read,Action.run_update] at made
  rcases ordered : (c.linearization scope).run store with ⟨_ | hierarchy,next⟩ <;>
    simp only [ordered] at made
  · simp at made
  · cases laid : ClassId.layout next scope c hierarchy.reverse .empty with
    | error e => simp [laid] at made
    | ok members =>
      simp only [laid,Prod.mk.injEq,Except.ok.injEq] at made
      exact ⟨hierarchy,members,rfl,laid,Prod.ext made.1.symm made.2.symm⟩

def Resolution.refuse : Resolution.Supply β σ :=
  fun _ name _ => Action.fail (.notFound .memberFunction name)

def Host.idle : Host Unit Unit where
  native _ _ _ := .done .nothing
  evaluate _ _ _ _ := .done .nothing
  supply := Resolution.refuse

def Runtime.first : Runtime := (Runtime.create defaultCallDepth false (.empty : Store Unit)).1

def World.first : World Unit Unit := ⟨(Runtime.create defaultCallDepth false .empty).2,()⟩

end ObjectModel
