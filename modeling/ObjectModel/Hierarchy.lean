import ObjectModel.Action
import ObjectModel.Linearization
import ObjectModel.Scope.Lookup

/-! The linear order of a class and its ancestors. Parents are looked up by name from the scope
that asks; a computed order is recorded for its class and holds from then on. -/
namespace ObjectModel.ClassId

variable {β : Type}

/-- The orders of all parents with the parents' qualified names, in declared order. -/
def parentOrders (store : Store β) (scope : Scope) (visit : ClassId → Action Memo (List String)) :
    List String → Action Memo (List (String × List String))
  | [] => pure []
  | parent :: rest => do
    let id ← Action.ofExcept (scope.lookupClass store parent)
    let order ← visit id
    let others ← parentOrders store scope visit rest
    return ((store.classOf id).qualifiedName, order) :: others

/-- Merges the parents' orders, the list of the parents themselves last, behind the class. -/
def mergeParents (name : String) (parents : List (String × List String)) :
    Except Error (List String) :=
  match Linearization.merge (parents.map (·.2) ++ [parents.map (·.1)]) with
  | .ok merged => .ok (name :: merged)
  | .error stuck => .error (.inconsistentHierarchy name (.conflict stuck))

/-- Computes the order of a class, reading and filling the memo. `path` holds the qualified
names of the classes being computed, outermost first. Each level adds a name to it that was not
there, so a budget above the number of classes is never used up. -/
def computeOrder (store : Store β) (scope : Scope) :
    Nat → List String → ClassId → Action Memo (List String)
  | 0, path, c =>
    Action.fail (.inconsistentHierarchy (store.classOf c).qualifiedName (.cycle path))
  | budget + 1, path, c => do
    let memo ← Action.get
    match memo.get? c with
    | some order => return order
    | none =>
      let it := store.classOf c
      let name := it.qualifiedName
      if path.contains name then
        Action.fail (.inconsistentHierarchy name (.cycle path))
      else if it.parents.isEmpty then
        Action.modify (·.record c [name])
        return [name]
      else
        let parents ←
          parentOrders store scope (computeOrder store scope budget (path ++ [name])) it.parents
        let order ← Action.ofExcept (mergeParents name parents)
        Action.modify (·.record c order)
        return order

/-- The linearization of a class as seen from a scope: qualified names, its own first. -/
def linearization (c : ClassId) (scope : Scope) : Action (Store β) (List String) := fun store =>
  let (result, memo) := computeOrder store scope (store.classes.size + 1) [] c store.memo
  (result, { store with memo })

def recorded? (c : ClassId) (store : Store β) : Option (List String) := store.memo.get? c

/-- Replaces the declared parents. A linearization already recorded stays. -/
def setParents (c : ClassId) (parents : List String) : Action (Store β) Unit :=
  Action.modify fun store => store.modifyClass c fun it => { it with parents }

end ObjectModel.ClassId
