import ObjectModel.Proofs.History

/-! Re-entrancy of state lent to bodies. While a body runs on the state attached to an object the
object has none, and the body may take, lend and attach state of the same object, to any depth. So
runs are watched for what they do with attached state. A program that tends one object changes
nothing in the store but what is attached to it, and every lending on the way runs its body once
and leaves state attached, be it new or what was lent. -/
namespace ObjectModel

variable {β σ : Type}

namespace Object

variable {o : Object} {store : Store β} {kind : String} {data : HostData}

def attached (o : Object) (store : Store β) : Option HostData := (store.object o).hostData

def attach (o : Object) (slot : Option HostData) (store : Store β) : Store β :=
  store.modifyObject o fun it => { it with hostData := slot }

@[simp] theorem size_attach (o : Object) (slot : Option HostData) (store : Store β) :
    (o.attach slot store).instances.size = store.instances.size :=
  Arena.size_modify store.instances o.index _

theorem attached_attach (present : o.index < store.instances.size) (slot : Option HostData) :
    o.attached (o.attach slot store) = slot :=
  congrArg Instance.hostData (Arena.get_modify_self present _)

theorem attach_attach (o : Object) (slot other : Option HostData) (store : Store β) :
    o.attach slot (o.attach other store) = o.attach slot store :=
  congrArg (fun instances => { store with instances })
    (Arena.modify_modify store.instances o.index _ _)

theorem attach_attached (o : Object) (store : Store β) :
    o.attach (o.attached store) store = store :=
  congrArg (fun instances => { store with instances }) (Arena.modify_eq_self rfl)

theorem present_of_attached (held : o.attached store = some data) :
    o.index < store.instances.size := by
  refine Nat.lt_of_not_le fun absent => ?_
  rw [attached,Store.object,Arena.get_of_size_le absent] at held
  contradiction

theorem takeHostData_of_attached (held : o.attached store = some data) :
    o.takeHostData data.kind store = (some data,o.attach none store) := by
  rw [attached] at held
  simp only [takeHostData,held,if_true]
  rfl

/-- No state of the kind is attached: there is none, or it is of another kind. -/
def Lacks (o : Object) (kind : String) (store : Store β) : Prop :=
  ∀ data, o.attached store = some data → data.kind ≠ kind

theorem takeHostData_of_lacks (lacks : o.Lacks kind store) :
    o.takeHostData kind store = (none,store) := by
  unfold takeHostData
  split
  next => rfl
  next data held => rw [if_neg (lacks data held)]

theorem attached_or_lacks (o : Object) (kind : String) (store : Store β) :
    (∃ data, o.attached store = some data ∧ data.kind = kind) ∨ o.Lacks kind store := by
  by_cases fits : ∃ data, o.attached store = some data ∧ data.kind = kind
  · exact .inl fits
  · exact .inr fun data held same => fits ⟨data,held,same⟩

theorem restoreHostData_eq_attach (o : Object) (returned : HostData) (store : Store β) :
    o.restoreHostData returned store =
      o.attach (some ((o.attached store).getD returned)) store := by
  cases held : o.attached store with
  | none =>
    have empty : o.hasHostData store = false := congrArg Option.isSome held
    simp only [restoreHostData,empty]
    rfl
  | some data =>
    have full : o.hasHostData store = true := congrArg Option.isSome held
    rw [Option.getD_some,← held,attach_attached]
    simp only [restoreHostData,full,if_true]

theorem attached_restoreHostData (present : o.index < store.instances.size)
    (returned : HostData) :
    o.attached (o.restoreHostData returned store) =
      some ((o.attached store).getD returned) := by
  rw [restoreHostData_eq_attach,attached_attach present]

end Object

/-- One run of a body on state that is lent to it. -/
structure Loan (U : Type) where
  lent : HostData
  /-- What is attached when the body begins. -/
  before : Option HostData
  uses : List U
  /-- What is attached when the body is over. -/
  left : Option HostData
  returned : HostData
  /-- What is attached in the end. -/
  after : Option HostData

inductive Use where
  | set (o : Object) (data : HostData)
  | take (o : Object) (kind : String) (answer : Option HostData)
  /-- A lending has a loan for each run of its body. -/
  | lend (o : Object) (kind : String) (answer : Option (HostData × Except Error Value))
      (loans : List (Loan Use))

def Object.loan (o : Object) (lent : HostData) (store : Store β) (uses : List Use)
    (later : Store β) (returned : HostData) : Loan Use :=
  { lent, before := o.attached store, uses, left := o.attached later, returned,
    after := o.attached (o.restoreHostData returned later) }

abbrev Record (β σ : Type) := Option (List Use × Except Error Value × World β σ)

def Record.precededBy (uses : List Use) (record : Record β σ) : Record β σ :=
  record.map fun (rest,outcome) => (uses ++ rest,outcome)

def Request.uses (store : Store β) : Request β → List Use
  | .setHostData o data => [.set o data]
  | .takeHostData o kind => [.take o kind (o.takeHostData kind store).1]
  | _ => []

/-- Runs a program and puts on record how it uses attached state. What the bodies of its calls do
with it is not on record. -/
def Program.watch (host : Host β σ) (enter : Enter β σ) :
    Program β σ → Context → World β σ → Record β σ
  | .done v, _, w => some ([],.ok v,w)
  | .raise e, _, w => some ([],.error e,w)
  | .observe next, ctx, w => (next ctx w).watch host enter ctx w
  | .keep state next, ctx, w => next.watch host enter ctx { w with host := state }
  | .ask request next, ctx, w =>
    match (request.perform host ctx).run w with
    | (answer,later) => ((next answer).watch host enter ctx later).precededBy (request.uses w.store)
  | .call c next, ctx, w =>
    match c.perform host enter ctx w with
    | (none,_) => none
    | (some (result,w),ctx) => (next result).watch host enter ctx w
  | .block opening caller body next, ctx, w =>
    match opening.enter caller ctx w.store with
    | (inner,store) =>
      match body.watch host enter inner { w with store } with
      | none => none
      | some (uses,result,w) => ((next result).watch host enter ctx w).precededBy uses
  | .lend o kind body update next, ctx, w =>
    match o.takeHostData kind w.store with
    | (none,_) => ((next none).watch host enter ctx w).precededBy [.lend o kind none []]
    | (some data,store) =>
      match (body data).watch host enter ctx { w with store } with
      | none => none
      | some (uses,result,left) =>
        ((next (some (data,result))).watch host enter ctx
          { left with store := o.restoreHostData (update data result) left.store }).precededBy
          [.lend o kind (some (data,result))
            [o.loan data store uses left.store (update data result)]]

theorem Record.map_precededBy (uses : List Use) (record : Record β σ) :
    (record.precededBy uses).map (·.2) = record.map (·.2) := by
  cases record <;> rfl

theorem Program.map_watch (host : Host β σ) (enter : Enter β σ) (p : Program β σ) (ctx : Context)
    (w : World β σ) : (p.watch host enter ctx w).map (·.2) = p.execute host enter ctx w := by
  induction p generalizing ctx w with
  | done v => rfl
  | raise e => rfl
  | observe next ih => exact ih ctx w ctx w
  | keep state next ih => exact ih ctx _
  | ask request next ih =>
    rw [watch,execute,Record.map_precededBy]
    exact ih _ ctx _
  | call c next ih =>
    rw [watch,execute]
    rcases c.perform host enter ctx w with ⟨_ | ⟨result,left⟩,back⟩
    · rfl
    · exact ih result back left
  | block opening caller body next ihBody ih =>
    rw [watch,execute]
    rcases opening.enter caller ctx w.store with ⟨inner,store⟩
    simp only [← ihBody]
    rcases body.watch host enter inner { w with store } with _ | ⟨uses,result,left⟩
    · rfl
    · exact (Record.map_precededBy _ _).trans (ih result ctx left)
  | lend o kind body update next ihBody ih =>
    rw [watch,execute]
    rcases o.takeHostData kind w.store with ⟨_ | data,store⟩
    · exact (Record.map_precededBy _ _).trans (ih none ctx w)
    · simp only [← ihBody]
      rcases (body data).watch host enter ctx { w with store } with _ | ⟨uses,result,left⟩
      · rfl
      · exact (Record.map_precededBy _ _).trans (ih _ ctx _)

theorem Program.execute_eq_of_watch {host : Host β σ} {enter : Enter β σ} {p q : Program β σ}
    {ctx : Context} {w later : World β σ} {uses : List Use}
    (watched : p.watch host enter ctx w = (q.watch host enter ctx later).precededBy uses) :
    p.execute host enter ctx w = q.execute host enter ctx later := by
  rw [← map_watch,watched,Record.map_precededBy,map_watch]

/-- Programs that tend one object: they look around, leave state with the host, take the state
attached to the object and lend it to bodies that tend it too, and attach state where that is
admitted. -/
inductive Program.Tends (o : Object) (sets : Prop) : Program β σ → Prop where
  | done (v : Value) : Tends o sets (.done v)
  | raise (e : Error) : Tends o sets (.raise e)
  | observe {next : Context → World β σ → Program β σ}
      (rest : ∀ ctx w, Tends o sets (next ctx w)) : Tends o sets (.observe next)
  | keep {next : Program β σ} (state : σ) (rest : Tends o sets next) :
      Tends o sets (.keep state next)
  | set {next : Except Error Unit → Program β σ} (data : HostData) (allowed : sets)
      (rest : ∀ answer, Tends o sets (next answer)) :
      Tends o sets (.ask (.setHostData o data) next)
  | take {next : Except Error (Option HostData) → Program β σ} (kind : String)
      (rest : ∀ answer, Tends o sets (next answer)) :
      Tends o sets (.ask (.takeHostData o kind) next)
  | lend {body : HostData → Program β σ} {update : HostData → Except Error Value → HostData}
      {next : Option (HostData × Except Error Value) → Program β σ} (kind : String)
      (inside : ∀ data, Tends o sets (body data)) (rest : ∀ answer, Tends o sets (next answer)) :
      Tends o sets (.lend o kind body update next)

/-- What tending an object does to the store, use by use. -/
inductive Object.Tended (o : Object) (sets : Prop) : Store β → List Use → Store β → Prop where
  | rest {store : Store β} : Tended o sets store [] store
  | set {store later : Store β} {uses : List Use} (data : HostData) (allowed : sets)
      (rest : Tended o sets (o.attach (some data) store) uses later) :
      Tended o sets store (.set o data :: uses) later
  | take {store later : Store β} {uses : List Use} {data : HostData}
      (held : o.attached store = some data)
      (rest : Tended o sets (o.attach none store) uses later) :
      Tended o sets store (.take o data.kind (some data) :: uses) later
  | lend {store left later : Store β} {inside uses : List Use} {data : HostData}
      (held : o.attached store = some data) (result : Except Error Value) (returned : HostData)
      (body : Tended o sets (o.attach none store) inside left)
      (rest : Tended o sets (o.restoreHostData returned left) uses later) :
      Tended o sets store (.lend o data.kind (some (data,result))
        [o.loan data (o.attach none store) inside left returned] :: uses) later
  | missTake {store later : Store β} {uses : List Use} {kind : String}
      (lacks : o.Lacks kind store) (rest : Tended o sets store uses later) :
      Tended o sets store (.take o kind none :: uses) later
  | missLend {store later : Store β} {uses : List Use} {kind : String}
      (lacks : o.Lacks kind store) (rest : Tended o sets store uses later) :
      Tended o sets store (.lend o kind none [] :: uses) later

def Use.Vain : Use → Prop
  | .set _ _ => False
  | .take _ _ answer => answer = none
  | .lend _ _ answer loans => answer = none ∧ loans = []

/-- A lending that is refused runs no body. One that is not runs it once, on state of the kind and
with nothing attached, and leaves attached what the body did, or else the state it was lent. In the
body the same goes for every lending. -/
inductive Use.Orderly : Use → Prop where
  | set (o : Object) (data : HostData) : Orderly (.set o data)
  | taken (o : Object) (data : HostData) : Orderly (.take o data.kind (some data))
  | missed (o : Object) (kind : String) : Orderly (.take o kind none)
  | refused (o : Object) (kind : String) : Orderly (.lend o kind none [])
  | lent (o : Object) (loan : Loan Use) (result : Except Error Value) (empty : loan.before = none)
      (inside : ∀ use ∈ loan.uses, Orderly use)
      (settled : loan.after = some (loan.left.getD loan.returned)) :
      Orderly (.lend o loan.lent.kind (some (loan.lent,result)) [loan])

namespace Object.Tended

variable {o : Object} {sets : Prop} {store later : Store β} {uses : List Use}

theorem frame (tended : o.Tended sets store uses later) :
    ∃ slot, later = o.attach slot store := by
  induction tended with
  | rest => exact ⟨_,(o.attach_attached _).symm⟩
  | set data allowed rest ih =>
    obtain ⟨slot,rfl⟩ := ih
    exact ⟨slot,o.attach_attach ..⟩
  | take held rest ih =>
    obtain ⟨slot,rfl⟩ := ih
    exact ⟨slot,o.attach_attach ..⟩
  | lend held result returned body rest ihBody ih =>
    obtain ⟨left,rfl⟩ := ihBody
    obtain ⟨slot,rfl⟩ := ih
    exact ⟨slot,by simp only [restoreHostData_eq_attach,attach_attach]⟩
  | missTake lacks rest ih => exact ih
  | missLend lacks rest ih => exact ih

theorem size_eq (tended : o.Tended sets store uses later) :
    later.instances.size = store.instances.size := by
  obtain ⟨slot,rfl⟩ := tended.frame
  exact o.size_attach slot store

theorem orderly (tended : o.Tended sets store uses later)
    (present : o.index < store.instances.size) : ∀ use ∈ uses, use.Orderly := by
  induction tended with
  | rest => exact nofun
  | set data allowed rest ih =>
    exact List.forall_mem_cons.mpr ⟨.set o data,ih (by rwa [size_attach])⟩
  | take held rest ih =>
    exact List.forall_mem_cons.mpr ⟨.taken o _,ih (by rwa [size_attach])⟩
  | @lend store left later inside uses data held result returned body rest ihBody ih =>
    have emptied : o.index < (o.attach none store).instances.size := by rwa [size_attach]
    have there : o.index < left.instances.size := by rwa [body.size_eq]
    rw [restoreHostData_eq_attach] at ih
    refine List.forall_mem_cons.mpr ⟨?_,ih (by rwa [size_attach])⟩
    refine .lent o (o.loan data (o.attach none store) inside left returned) result ?_ ?_ ?_
    · exact attached_attach present none
    · exact ihBody emptied
    · exact attached_restoreHostData there returned
  | missTake lacks rest ih => exact List.forall_mem_cons.mpr ⟨.missed o _,ih present⟩
  | missLend lacks rest ih => exact List.forall_mem_cons.mpr ⟨.refused o _,ih present⟩

/-- While nothing is attached, and nothing may be, all uses are in vain. -/
theorem vain (tended : o.Tended sets store uses later) (forbidden : ¬sets)
    (empty : o.attached store = none) : later = store ∧ ∀ use ∈ uses, use.Vain := by
  induction tended with
  | rest => exact ⟨rfl,nofun⟩
  | set data allowed => exact absurd allowed forbidden
  | take held => rw [empty] at held; contradiction
  | lend held => rw [empty] at held; contradiction
  | missTake lacks rest ih =>
    obtain ⟨same,vain⟩ := ih empty
    exact ⟨same,List.forall_mem_cons.mpr ⟨rfl,vain⟩⟩
  | missLend lacks rest ih =>
    obtain ⟨same,vain⟩ := ih empty
    exact ⟨same,List.forall_mem_cons.mpr ⟨⟨rfl,rfl⟩,vain⟩⟩

end Object.Tended

namespace Program

variable {host : Host β σ} {enter : Enter β σ} {ctx : Context} {w : World β σ} {o : Object}
  {kind : String} {data : HostData} {body : HostData → Program β σ}

theorem watch_take (next : Except Error (Option HostData) → Program β σ) :
    (ask (.takeHostData o kind) next).watch host enter ctx w =
      ((next (.ok (o.takeHostData kind w.store).1)).watch host enter ctx
        { w with store := (o.takeHostData kind w.store).2 }).precededBy
        [.take o kind (o.takeHostData kind w.store).1] := rfl

theorem watch_lend_of_attached (held : o.attached w.store = some data) {inside : List Use}
    {result : Except Error Value} {left : World β σ}
    (ran : (body data).watch host enter ctx { w with store := o.attach none w.store } =
      some (inside,result,left))
    (update : HostData → Except Error Value → HostData)
    (next : Option (HostData × Except Error Value) → Program β σ) :
    (lend o data.kind body update next).watch host enter ctx w =
      ((next (some (data,result))).watch host enter ctx
        { left with store := o.restoreHostData (update data result) left.store }).precededBy
        [.lend o data.kind (some (data,result))
          [o.loan data (o.attach none w.store) inside left.store (update data result)]] := by
  simp only [watch,Object.takeHostData_of_attached held,ran]

theorem watch_lend_of_lacks (lacks : o.Lacks kind w.store) (body : HostData → Program β σ)
    (update : HostData → Except Error Value → HostData)
    (next : Option (HostData × Except Error Value) → Program β σ) :
    (lend o kind body update next).watch host enter ctx w =
      ((next none).watch host enter ctx w).precededBy [.lend o kind none []] := by
  simp only [watch,Object.takeHostData_of_lacks lacks]

theorem Tends.tended {sets : Prop} {p : Program β σ} (tends : p.Tends o sets)
    (host : Host β σ) (enter : Enter β σ) (ctx : Context) (w : World β σ) :
    ∃ uses result left, p.watch host enter ctx w = some (uses,result,left) ∧
      o.Tended sets w.store uses left.store := by
  induction tends generalizing w with
  | done v => exact ⟨_,_,_,rfl,.rest⟩
  | raise e => exact ⟨_,_,_,rfl,.rest⟩
  | observe rest ih => exact ih ctx w w
  | keep state rest ih => exact ih { w with host := state }
  | set data allowed rest ih =>
    obtain ⟨uses,result,left,ran,tended⟩ :=
      ih (.ok ()) { w with store := o.attach (some data) w.store }
    exact ⟨_,result,left,congrArg (Record.precededBy [.set o data]) ran,.set data allowed tended⟩
  | @take next kind rest ih =>
    rw [watch_take]
    rcases o.attached_or_lacks kind w.store with ⟨data,held,rfl⟩ | lacks
    · rw [Object.takeHostData_of_attached held]
      obtain ⟨uses,result,left,ran,tended⟩ :=
        ih (.ok (some data)) { w with store := o.attach none w.store }
      exact ⟨_,result,left,congrArg (Record.precededBy _) ran,.take held tended⟩
    · rw [Object.takeHostData_of_lacks lacks]
      obtain ⟨uses,result,left,ran,tended⟩ := ih (.ok none) w
      exact ⟨_,result,left,congrArg (Record.precededBy _) ran,.missTake lacks tended⟩
  | @lend body update next kind inside rest ihInside ih =>
    rcases o.attached_or_lacks kind w.store with ⟨data,held,rfl⟩ | lacks
    -- What the body leaves is not known in advance, so the rest is run from whatever that is.
    · obtain ⟨inside,answer,left,ran,within⟩ :=
        ihInside data { w with store := o.attach none w.store }
      obtain ⟨uses,result,last,went,tended⟩ := ih (some (data,answer))
        { left with store := o.restoreHostData (update data answer) left.store }
      rw [watch_lend_of_attached held ran,went]
      exact ⟨_,result,last,rfl,.lend held answer _ within tended⟩
    · obtain ⟨uses,result,last,went,tended⟩ := ih none w
      rw [watch_lend_of_lacks lacks,went]
      exact ⟨_,result,last,rfl,.missLend lacks tended⟩

end Program

/-- State attached to an object is lent to a body that tends the object in its turn. The body is run
once, comes to an end, and begins with nothing attached. Afterwards state is attached: what the body
left attached, or else the state that was lent, as the body has changed it. All else in the store
is as it was. So it is for every lending inside. Where the body may not attach state, whatever it
takes or lends is refused, no body inside is run, and the state is back. And where state of another
kind is asked for, by taking or lending, the answer is none and nothing happens. -/
theorem lent_state_survives (host : Host β σ) (enter : Enter β σ) (ctx : Context) {w : World β σ}
    {o : Object} {data : HostData} (held : o.attached w.store = some data) {sets : Prop}
    (body : HostData → Program β σ) (tends : (body data).Tends o sets)
    (update : HostData → Except Error Value → HostData)
    (next : Option (HostData × Except Error Value) → Program β σ) :
    (∃ inside result left after,
      (body data).watch host enter ctx { w with store := o.attach none w.store } =
        some (inside,result,left) ∧
      (body data).execute host enter ctx { w with store := o.attach none w.store } =
        some (result,left) ∧
      (Program.lend o data.kind body update next).watch host enter ctx w =
        ((next (some (data,result))).watch host enter ctx after).precededBy
          [.lend o data.kind (some (data,result))
            [{ lent := data, before := none, uses := inside, left := o.attached left.store,
               returned := update data result, after := o.attached after.store }]] ∧
      (Program.lend o data.kind body update next).execute host enter ctx w =
        (next (some (data,result))).execute host enter ctx after ∧
      o.attached after.store = some ((o.attached left.store).getD (update data result)) ∧
      after = { left with store := o.attach (o.attached after.store) w.store } ∧
      (∀ use ∈ inside, use.Orderly) ∧
      (¬sets → (∀ use ∈ inside, use.Vain) ∧
        o.attached after.store = some (update data result))) ∧
    ∀ kind, kind ≠ data.kind →
      ((Request.takeHostData o kind).perform host ctx).run w = (.ok none,w) ∧
      ∀ (other : HostData → Program β σ) change next,
        (Program.lend o kind other change next).watch host enter ctx w =
          ((next none).watch host enter ctx w).precededBy [.lend o kind none []] ∧
        (Program.lend o kind other change next).execute host enter ctx w =
          (next none).execute host enter ctx w := by
  have present := Object.present_of_attached held
  have emptied := Object.attached_attach present none
  constructor
  · obtain ⟨inside,result,left,ran,tended⟩ :=
      tends.tended host enter ctx { w with store := o.attach none w.store }
    have lent := Program.watch_lend_of_attached held ran update next
    have there : o.index < left.store.instances.size := by
      rwa [tended.size_eq,Object.size_attach]
    have settled := Object.attached_restoreHostData there (update data result)
    refine ⟨inside,result,left,
      { left with store := o.restoreHostData (update data result) left.store },ran,?_,?_,?_,settled,
      ?_,?_,fun forbidden => ?_⟩
    · rw [← Program.map_watch,ran]
      rfl
    · rw [lent,Object.loan,emptied]
    · exact Program.execute_eq_of_watch lent
    · obtain ⟨slot,same⟩ := tended.frame
      rw [settled,Object.restoreHostData_eq_attach,same,Object.attach_attach,Object.attach_attach]
    · exact tended.orderly (by rwa [Object.size_attach])
    · obtain ⟨same,vain⟩ := tended.vain forbidden emptied
      refine ⟨vain,?_⟩
      rw [settled,same,emptied]
      rfl
  · intro kind other
    have lacks : o.Lacks kind w.store := by
      intro d again same
      obtain rfl := Option.some.inj (held.symm.trans again)
      exact other same.symm
    refine ⟨?_,fun body change next => ?_⟩
    · exact congrArg (fun took => (Except.ok took.1,{ w with store := took.2 }))
        (Object.takeHostData_of_lacks lacks)
    · have refused : (Program.lend o kind body change next).watch host enter ctx w = _ :=
        Program.watch_lend_of_lacks lacks body change next
      exact ⟨refused,Program.execute_eq_of_watch refused⟩

/-! An object with a number attached, which is lent to two bodies. Both try to get at the number;
one of them leaves a text in its place and has that lent in turn. -/
namespace Cloakroom

def o : Object := ⟨0⟩

def coat : HostData := ⟨"int",.integer 10⟩

def hat (text : String) : HostData := ⟨"str",.string text⟩

def ctx : Context := Runtime.first.globalContext

def world : World Unit Unit :=
  World.first.play .idle [.ask ctx (.makeClass { name := "ROOM", modulePath := "m" }),
    .ask ctx (.detach ⟨0⟩),.ask ctx (.setHostData o coat)]

def search : Program Unit Unit :=
  .ask (.takeHostData o "int") fun _ =>
    .lend o "int" (fun _ => .raise (.notFound .memberVariable "COAT")) (fun held _ => held) fun _ =>
      .observe fun _ w => .done (.boolean (o.hasHostData w.store))

def swap : Program Unit Unit :=
  .ask (.setHostData o (hat "new")) fun _ =>
    .ask (.takeHostData o "int") fun _ =>
      .lend o "str" (fun _ => search) (fun _ _ => hat "newer") fun _ =>
        .done .nothing

theorem tends_search (sets : Prop) : search.Tends o sets :=
  .take _ fun _ => .lend _ (fun _ => .raise _) fun _ => .observe fun _ _ => .done _

theorem tends_swap : swap.Tends o True :=
  .set _ trivial fun _ => .take _ fun _ => .lend _ (fun _ => tends_search True) fun _ => .done _

def worn : HostData := ⟨"int",.integer 11⟩

def lending (body : Program Unit Unit) : Program Unit Unit :=
  .lend o "int" (fun _ => body) (fun _ _ => worn) fun
    | some (_,.ok v) => .done v
    | _ => .done .nothing

end Cloakroom

/-- After the body that left a text the text is there, changed in its turn; after the body that only
searched it is the number. -/
theorem lent_state_survives_cloakroom :
    Cloakroom.o.attached Cloakroom.world.store = some Cloakroom.coat ∧
    (∃ after, (Cloakroom.lending Cloakroom.swap).execute .idle (Program.run .idle 0) Cloakroom.ctx
        Cloakroom.world = some (.ok .nothing,after) ∧
      Cloakroom.o.attached after.store = some (Cloakroom.hat "newer")) ∧
    (∃ after, (Cloakroom.lending Cloakroom.search).execute .idle (Program.run .idle 0) Cloakroom.ctx
        Cloakroom.world = some (.ok (.boolean false),after) ∧
      Cloakroom.o.attached after.store = some Cloakroom.worn) ∧
    ((Request.takeHostData Cloakroom.o "str").perform .idle Cloakroom.ctx).run Cloakroom.world =
      (.ok none,Cloakroom.world) := by
  have held : Cloakroom.o.attached Cloakroom.world.store = some Cloakroom.coat := rfl
  obtain ⟨⟨_,result,left,after,ran,_,_,executed,settled,_⟩,other⟩ :=
    lent_state_survives .idle (Program.run .idle 0) Cloakroom.ctx held
      (fun _ => Cloakroom.swap) Cloakroom.tends_swap (fun _ _ => Cloakroom.worn) fun
        | some (_,.ok v) => .done v
        | _ => .done .nothing
  obtain ⟨⟨_,calm,_,later,searched,_,_,finished,_,_,_,back⟩,_⟩ :=
    lent_state_survives .idle (Program.run .idle 0) Cloakroom.ctx held
      (fun _ => Cloakroom.search) (Cloakroom.tends_search False) (fun _ _ => Cloakroom.worn) fun
        | some (_,.ok v) => .done v
        | _ => .done .nothing
  obtain ⟨rfl,rfl⟩ : Except.ok .nothing = result ∧ _ = left :=
    Prod.mk.inj (congrArg Prod.snd (Option.some.inj (rfl.trans ran)))
  obtain rfl : Except.ok (.boolean false) = calm :=
    congrArg (·.2.1) (Option.some.inj (rfl.trans searched))
  exact ⟨held,⟨after,executed,settled⟩,⟨later,finished,(back id).2⟩,(other "str" (by decide)).1⟩

example : ((Cloakroom.lending Cloakroom.swap).watch .idle (Program.run .idle 0) Cloakroom.ctx
      Cloakroom.world).map (·.1) =
    some [.lend Cloakroom.o "int" (some (Cloakroom.coat,.ok .nothing))
      [{ lent := Cloakroom.coat
         before := none
         uses := [.set Cloakroom.o (Cloakroom.hat "new"),.take Cloakroom.o "int" none,
           .lend Cloakroom.o "str" (some (Cloakroom.hat "new",.ok (.boolean false)))
             [{ lent := Cloakroom.hat "new"
                before := none
                uses := [.take Cloakroom.o "int" none,.lend Cloakroom.o "int" none []]
                left := none
                returned := Cloakroom.hat "newer"
                after := some (Cloakroom.hat "newer") }]]
         left := some (Cloakroom.hat "newer")
         returned := Cloakroom.worn
         after := some (Cloakroom.hat "newer") }]] := rfl

end ObjectModel
