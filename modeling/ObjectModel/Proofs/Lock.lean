import ObjectModel.Proofs.Course

/-! Locks. A variable lives in a scope, among those that a class shares, or in an instance, and
from each of these seats it is assigned in one way only, which looks at the lock first. So a locked
variable stays as it is until its scope is cleared, and whatever assignment finds it fails. -/
namespace ObjectModel

variable {β σ : Type}

/-- An event clears the scope that the seat is in. Nothing clears a class or an instance. -/
def Seat.ClearedBy (e : Event β σ) : Seat → Prop
  | .scope s => e.Clears s
  | .shared _ | .own _ => False

theorem Variable.assign_of_locked {v : Variable} (locked : v.locked = true) (store : Store β)
    (value : Value) : v.assign store value = .error (.locked v.name) := by
  simp [assign,prepare,locked,Except.map]

section

variable {l : Licence β} {store later : Store β}
  {name : String} {v : Variable}

/-- No update touches a locked variable: its name is not new, and it is not assigned. -/
theorem Table.Updates.keeps_locked {binds : Variable → Prop} {assigns : String → Prop}
    {t later : Table Variable} (updates : t.Updates binds assigns store later)
    (held : t.get? name = some v) (locked : v.locked = true) : later.get? name = some v := by
  cases updates with
  | same => exact held
  | bind _ free => exact get?_insert_of_free held free _
  | @assign other u next value _ present assigned =>
    have apart : name ≠ other := by
      rintro rfl
      obtain rfl := Option.some.inj (held.symm.trans present)
      rw [Variable.assign_of_locked locked] at assigned
      contradiction
    exact (get?_insert_of_ne apart t next).trans held

theorem Alteration.keeps_locked (alteration : Alteration l store later)
    {seat : Seat} (held : seat.occupant? store name = some v) (locked : v.locked = true)
    (uncleared : ∀ s, seat = .scope s → ¬l.clears s) : seat.occupant? later name = some v := by
  cases seat with
  | scope s =>
    rcases alteration.bindings s with updates | ⟨cleared,_⟩
    · exact updates.keeps_locked held locked
    · exact absurd cleared (uncleared s rfl)
  | shared c =>
    rcases alteration.classOf c with ⟨_,_,same,updates⟩ | ⟨absent,_⟩
    · rw [Seat.occupant?,same]
      exact updates.keeps_locked held locked
    · rw [Seat.occupant?,Store.classOf_of_size_le absent] at held
      contradiction
  | own o =>
    rcases alteration.object o with lasts | ⟨absent,_⟩
    · exact lasts.members.keeps_locked held locked
    · rw [Seat.occupant?,Store.object_of_size_le absent] at held
      contradiction

theorem Alters.keeps_locked (alters : Alters l store later) {seat : Seat}
    (held : seat.occupant? store name = some v) (locked : v.locked = true)
    (uncleared : ∀ s, seat = .scope s → ¬l.clears s) : seat.occupant? later name = some v := by
  induction alters with
  | refl => exact held
  | tail _ alteration kept => exact alteration.keeps_locked kept locked uncleared

theorem Scope.assign_of_locked {scope owner : Scope} (found : scope.owner? store name = some owner)
    (held : (store.frame owner).bindings.get? name = some v) (locked : v.locked = true)
    (value : Value) : (scope.assign name value).run store = (.error (.locked v.name),store) := by
  simp only [assign,Action.run_bind,Action.run_get,found,held,Action.run_ofExcept,
    Variable.assign_of_locked locked]

theorem Object.setMember_of_locked {o : Object} {caller : Caller} {place : Object.Place}
    (found : o.member store name caller = .ok (place,v)) (locked : v.locked = true)
    (value : Value) :
    (o.setMember name value caller).run store = (.error (.locked v.name),store) := by
  rw [run_setMember,found]
  simp only [Variable.assign_of_locked locked]

end

theorem Request.perform_of_locked {host : Host β σ} {ctx : Context} {request : Request β}
    {w : World β σ} {seat : Seat} {name : String} {v : Variable}
    (reaches : request.target? ctx w.store = some (seat,name))
    (held : seat.occupant? w.store name = some v) (locked : v.locked = true) :
    (request.perform host ctx).run w = (.error (.locked v.name),w) := by
  cases request with
  | assign other value =>
    obtain ⟨owner,found,same⟩ := Option.map_eq_some_iff.mp reaches
    obtain ⟨rfl,rfl⟩ := Prod.mk.inj same
    exact congrArg (fun answer => (answer.1,{ w with store := answer.2 }))
      (Scope.assign_of_locked found held locked value)
  | setMember o other value caller =>
    simp only [target?] at reaches
    split at reaches
    next place u found =>
      obtain ⟨rfl,rfl⟩ := Prod.mk.inj (Option.some.inj reaches)
      have seated : (o.seat w.store place).occupant? w.store other = some u := by
        cases place <;> exact Object.get?_of_member found
      obtain rfl := Option.some.inj (seated.symm.trans held)
      exact congrArg (fun answer => (answer.1,{ w with store := answer.2 }))
        (Object.setMember_of_locked found locked value)
    next => contradiction
  | _ => contradiction

/-- A variable that is locked where it is stored stays the same through all events and calls,
until its scope is cleared, and every assignment that reaches it fails with its lock. -/
theorem locked_variable_lasts {host : Host β σ} {start w : World β σ} {past : List (Store β)}
    {seat : Seat} {name : String} {v : Variable}
    (held : seat.occupant? start.store name = some v) (locked : v.locked = true)
    (attained : World.Attains host (fun _ e => ¬seat.ClearedBy e) start past w) :
    seat.occupant? w.store name = some v ∧
      ∀ (ctx : Context) (request : Request β), request.target? ctx w.store = some (seat,name) →
        (request.perform host ctx).run w = (.error (.locked v.name),w) := by
  have kept : seat.occupant? w.store name = some v := by
    refine attained.holds (fun _ store => seat.occupant? store name = some v)
      (fun _ before e still uncleared => ?_) held
    refine (e.alters host before).keeps_locked still locked fun s same clears => uncleared ?_
    rw [same]
    exact clears
  exact ⟨kept,fun ctx request reaches => Request.perform_of_locked reaches kept locked⟩

/-! A method that goes for three locked variables, one of each seat, and reports how the last
attempt failed. -/
namespace Burglar

def host : Host Unit Unit where
  native _ receiver _ :=
    let o := receiver.getD default
    .ask (.setMember o "OWN" (.integer 5) (.member "m.SAFE")) fun _ =>
      .ask (.setMember o "SHARED" (.integer 5) .outside) fun _ =>
        .ask (.assign "X" (.string "five")) fun
          | .ok _ => .done .nothing
          | .error e => .raise e
  evaluate _ _ _ _ := .done .nothing
  supply := Resolution.refuse

def ctx : Context := Runtime.first.globalContext

def bolted (name : String) (n : Int64) : Variable :=
  { name, type := .integer, value := .integer n, locked := true }

def safe : Class Unit :=
  (({ name := "SAFE", modulePath := "m" } : Class Unit).declareVariable (bolted "OWN" 1)
    |>.declareSharedVariable (bolted "SHARED" 2)
    |>.declareFunction { name := "CRACK", body := .native () } .shown)

def world : World Unit Unit :=
  World.first.play host [.ask ctx (.defineVariable (bolted "X" 3)),.ask ctx (.defineClass safe),
    .ask ctx (.newObject "SAFE")]

def call : Call Unit := .method ⟨0⟩ "CRACK" none []

def later : World Unit Unit := Entry.replay host world (call.journal host 1 ctx world)

theorem returned : call.perform host (Program.run host 1) ctx world =
    (some (.error (.locked "X"),later),ctx) := rfl

theorem attained (seat : Seat) :
    ∃ past, World.Attains host (fun _ e => ¬seat.ClearedBy e) world past later := by
  refine ⟨_,.call .start returned ?_⟩
  cases seat <;> exact ⟨id,id,id,id,id,id,trivial⟩

end Burglar

theorem locked_variable_lasts_burglar :
    (Seat.scope Burglar.ctx.scope).occupant? Burglar.later.store "X" =
      some (Burglar.bolted "X" 3) ∧
    (Seat.shared ⟨0⟩).occupant? Burglar.later.store "SHARED" = some (Burglar.bolted "SHARED" 2) ∧
    (Seat.own ⟨0⟩).occupant? Burglar.later.store "OWN" = some (Burglar.bolted "OWN" 1) ∧
    ((Request.assign "X" (.string "five")).perform Burglar.host Burglar.ctx).run Burglar.later =
      (.error (.locked "X"),Burglar.later) := by
  obtain ⟨_,bound⟩ := Burglar.attained (.scope Burglar.ctx.scope)
  obtain ⟨_,shared⟩ := Burglar.attained (.shared ⟨0⟩)
  obtain ⟨_,own⟩ := Burglar.attained (.own ⟨0⟩)
  have there : (Seat.scope Burglar.ctx.scope).occupant? Burglar.world.store "X" =
      some (Burglar.bolted "X" 3) := rfl
  obtain ⟨kept,refused⟩ := locked_variable_lasts there rfl bound
  refine ⟨kept,?_,?_,refused Burglar.ctx (.assign "X" (.string "five")) rfl⟩
  · exact (locked_variable_lasts rfl rfl shared).1
  · exact (locked_variable_lasts rfl rfl own).1

end ObjectModel
