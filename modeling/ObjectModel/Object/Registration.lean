import ObjectModel.Store

/-! Registries of instances. An instance draws its handle when it is first registered anywhere
and keeps it. -/
namespace ObjectModel

variable {β : Type}

namespace Handle

def text (h : Handle) : String := Numeral.decimalDigits h.number.toNat

def parse (text : String) : Except Numeral.Fault Handle := (Numeral.uint64 text).map Handle.mk

end Handle

namespace Object

/-- The handle of an instance, drawn now if it has none. Drawing moves the counter on. -/
def drawHandle (o : Object) (store : Store β) : Handle × Store β :=
  match (store.object o).handle with
  | some h => (h, store)
  | none =>
    let h : Handle := ⟨store.nextHandle⟩
    (h, { store.modifyObject o fun it => { it with handle := some h } with
          nextHandle := store.nextHandle + 1 })

end Object

namespace Registrations

def find? (h : Handle) : Registrations → Option Object
  | [] => none
  | (key, o) :: rest => if key = h then some o else find? h rest

def add (r : Registrations) (h : Handle) (o : Object) : Registrations :=
  match r.find? h with
  | some _ => r
  | none => (h, o) :: r

def erase (r : Registrations) (h : Handle) : Registrations := r.filter (·.1 ≠ h)

end Registrations

namespace Registry

def size (r : Registry) (store : Store β) : Nat := (store.registered r).length

def lookup (r : Registry) (store : Store β) (h : Handle) : Except Error Object :=
  match Registrations.find? h (store.registered r) with
  | some o => .ok o
  | none => .error (.notFound .registeredObject h.text)

def register (r : Registry) (o : Object) (store : Store β) : Handle × Store β :=
  let (h, store) := o.drawHandle store
  (h, store.modifyRegistry r (Registrations.add · h o))

def release (r : Registry) (h : Handle) (store : Store β) : Bool × Store β :=
  ((Registrations.find? h (store.registered r)).isSome,
    store.modifyRegistry r (Registrations.erase · h))

def clear (r : Registry) (store : Store β) : Store β := store.modifyRegistry r fun _ => []

end Registry
end ObjectModel
