import ObjectModel.Proofs.Atomicity

/-! Dealings with registries. An instance is entered under its handle, a handle is freed, or a
registry is cleared. A dealing moves handles and registries and nothing else. -/
namespace ObjectModel

variable {β : Type}

inductive Dealing where
  | enter (r : Registry) (o : Object) (h : Handle)
  | release (r : Registry) (h : Handle)
  | clear (r : Registry)
  deriving DecidableEq, Repr

/-- What a dealing makes of a store, if there is one. -/
inductive Deals (store : Store β) : Option Dealing → Store β → Prop where
  | rest : Deals store none store
  | enter (r : Registry) (o : Object) :
      Deals store (some (.enter r o (r.register o store).1)) (r.register o store).2
  | release (r : Registry) (h : Handle) : Deals store (some (.release r h)) (r.release h store).2
  | clear (r : Registry) : Deals store (some (.clear r)) (r.clear store)

def Store.handOut (store : Store β) (o : Object) : Store β :=
  { store.modifyObject o fun it => { it with handle := some ⟨store.nextHandle⟩ } with
    nextHandle := store.nextHandle + 1 }

namespace Registry

variable {r : Registry} {o : Object} {h : Handle} {store : Store β}

theorem register_of_held (held : (store.object o).handle = some h) :
    r.register o store = (h,store.modifyRegistry r (Registrations.add · h o)) := by
  simp [register,Object.drawHandle,held]

theorem register_of_fresh (fresh : (store.object o).handle = none) :
    r.register o store = (⟨store.nextHandle⟩,
      (store.handOut o).modifyRegistry r (Registrations.add · ⟨store.nextHandle⟩ o)) := by
  simp [register,Object.drawHandle,fresh,Store.handOut]

theorem size_register (r : Registry) (o : Object) (store : Store β) :
    (r.register o store).2.instances.size = store.instances.size := by
  cases held : (store.object o).handle with
  | some h => rw [register_of_held held]; rfl
  | none =>
    rw [register_of_fresh held]
    exact Arena.size_modify store.instances o.index _

theorem handle_register (made : o.index < store.instances.size) :
    ((r.register o store).2.object o).handle = some (r.register o store).1 := by
  cases held : (store.object o).handle with
  | some h =>
    rw [register_of_held held]
    exact held
  | none =>
    rw [register_of_fresh held]
    exact congrArg Instance.handle (Arena.get_modify_self made _)

end Registry

namespace Deals

variable {store later : Store β} {dealing : Option Dealing}

theorem spares (deals : Deals store dealing later) :
    ∃ instances registries nextHandle,
      later = { store with instances, registries, nextHandle } := by
  cases deals with
  | rest | release | clear => exact ⟨_,_,_,rfl⟩
  | enter r o =>
    cases held : (store.object o).handle with
    | some h => exact ⟨_,_,_,congrArg Prod.snd (Registry.register_of_held held)⟩
    | none => exact ⟨_,_,_,congrArg Prod.snd (Registry.register_of_fresh held)⟩

theorem size (deals : Deals store dealing later) :
    later.instances.size = store.instances.size ∧
      later.registries.size = store.registries.size := by
  cases deals with
  | rest => exact ⟨rfl,rfl⟩
  | enter r o =>
    refine ⟨r.size_register o store,?_⟩
    cases held : (store.object o).handle with
    | some h =>
      rw [Registry.register_of_held held]
      exact Arena.size_modify store.registries r.index _
    | none =>
      rw [Registry.register_of_fresh held]
      exact Arena.size_modify store.registries r.index _
  | release r | clear r => exact ⟨rfl,Arena.size_modify store.registries r.index _⟩

/-- At most the handle of an instance is another one. -/
theorem object (deals : Deals store dealing later) (o : Object) :
    ∃ handle, later.object o = { store.object o with handle } := by
  cases deals with
  | rest | release | clear => exact ⟨_,rfl⟩
  | enter r other =>
    cases held : (store.object other).handle with
    | some h =>
      rw [Registry.register_of_held held]
      exact ⟨_,rfl⟩
    | none =>
      rw [Registry.register_of_fresh held]
      rcases store.object_modifyObject_cases other o _ with kept | ⟨_,given⟩
      · exact ⟨_,kept⟩
      · exact ⟨_,given⟩

end Deals

theorem ClassId.lt_size_of_instantiate {c : ClassId} {scope : Scope} {store later : Store β}
    {o : Object} (made : (c.instantiate scope).run store = (.ok o,later)) :
    o.index < later.instances.size := by
  obtain ⟨hierarchy,members,_,_,added⟩ := ClassId.eq_addObject_of_instantiate made
  obtain ⟨rfl,rfl⟩ := Prod.mk.inj added
  simp

theorem Context.lt_size_of_newObject {ctx : Context} {name : String} {store later : Store β}
    {o : Object} (made : (ctx.newObject name).run store = (.ok o,later)) :
    o.index < later.instances.size := by
  cases found : ctx.scope.lookupClass store name with
  | error e => simp [run_newObject_of_missing found] at made
  | ok c =>
    simp only [run_newObject_of_found found,Action.run_bind,Action.run_update,Action.run_pure]
      at made
    rcases instantiated : (c.instantiate ctx.scope).run store with ⟨_ | it,next⟩ <;>
      rw [instantiated] at made
    · simp at made
    · simp only [Prod.mk.injEq,Except.ok.injEq] at made
      obtain ⟨rfl,rfl⟩ := made
      rw [Registry.size_register]
      exact ClassId.lt_size_of_instantiate instantiated

end ObjectModel
