import ObjectModel.Binding
import ObjectModel.Hierarchy

/-! What objects hold: the members that are laid out for a new instance, those that its class
shares, and the state that the host attaches, which can be taken only as the kind it is. -/
namespace ObjectModel

variable {β : Type}

namespace ClassId

/-- The members of a new instance. The order is walked from its end, so the declarations of the
more derived classes replace the others; only the class itself adds private variables. -/
def layout (store : Store β) (scope : Scope) (c : ClassId) :
    List String → Table Variable → Except Error (Table Variable)
  | [], members => .ok members
  | name :: rest, members =>
    let it := store.classOf c
    let found := if name = it.qualifiedName then .ok c else scope.lookupClass store name
    match found with
    | .error e => .error e
    | .ok ancestor =>
      let members := members.merge (store.classOf ancestor).publicVariables
      let members := if ancestor = c then members.merge it.privateVariables else members
      layout store scope c rest members

/-- A new instance, whose ancestors are those the scope sees. -/
def instantiate (c : ClassId) (scope : Scope) : Action (Store β) Object := do
  let hierarchy ← c.linearization scope
  let members ← Action.read fun store => layout store scope c hierarchy.reverse .empty
  Action.update (·.addObject { definition := c, scope := some scope, hierarchy, members })

/-- A new instance without a scope: its hierarchy is its class alone. -/
def detached (c : ClassId) : Action (Store β) Object := Action.update fun store =>
  let it := store.classOf c
  store.addObject
    { definition := c
      scope := none
      hierarchy := [it.qualifiedName]
      members := (Table.empty.merge it.publicVariables).merge it.privateVariables }

end ClassId

namespace Object

inductive Place where
  | own
  | shared
  deriving DecidableEq, Repr

/-- The variable under a member name as a caller may use it: the object's own, else the one its
class shares, which every caller may use. -/
def member (o : Object) (store : Store β) (name : String) (caller : Caller) :
    Except Error (Place × Variable) :=
  let definition := store.definitionOf o
  match (store.object o).members.get? name with
  | some v =>
    if v.isShown || caller.is definition.qualifiedName then .ok (.own, v)
    else .error (.inaccessible .memberVariable v.name)
  | none =>
    match definition.sharedVariables.get? name with
    | some v => .ok (.shared, v)
    | none => .error (.notFound .memberVariable name)

def getMember (o : Object) (store : Store β) (name : String) (caller : Caller) :
    Except Error Value :=
  (o.member store name caller).map (·.2.value)

def putMember (o : Object) (name : String) (v : Variable) (store : Store β) : Place → Store β
  | .own => store.modifyObject o fun it => { it with members := it.members.insert name v }
  | .shared => store.modifyClass (store.object o).definition fun it =>
    { it with sharedVariables := it.sharedVariables.insert name v }

/-- Assigns a member. A shared variable changes for all instances of the class. -/
def setMember (o : Object) (name : String) (value : Value) (caller : Caller) :
    Action (Store β) Unit := do
  let store ← Action.get
  let (place, v) ← Action.ofExcept (o.member store name caller)
  let v ← Action.ofExcept (v.assign store value)
  Action.modify fun store => o.putMember name v store place

def memberNames (o : Object) (store : Store β) : List String := (store.object o).members.names

def hasHostData (o : Object) (store : Store β) : Bool := (store.object o).hostData.isSome

def setHostData (o : Object) (data : HostData) (store : Store β) : Store β :=
  store.modifyObject o fun it => { it with hostData := some data }

/-- Takes the state off if it is of the kind; state of another kind stays. -/
def takeHostData (o : Object) (kind : String) (store : Store β) : Option HostData × Store β :=
  match (store.object o).hostData with
  | none => (none, store)
  | some data =>
    if data.kind = kind then
      (some data, store.modifyObject o fun it => { it with hostData := none })
    else (none, store)

/-- Puts state back unless other state was attached meanwhile. -/
def restoreHostData (o : Object) (data : HostData) (store : Store β) : Store β :=
  if o.hasHostData store then store else o.setHostData data store

end Object
end ObjectModel
