import ObjectModel.Action
import ObjectModel.Binding

/-! Definitions and assignments in a scope. Each checks all that can go wrong before it writes. -/
namespace ObjectModel.Scope

variable {β : Type}

def defineVariable (scope : Scope) (v : Variable) : Action (Store β) Unit := do
  let store ← Action.get
  if scope.definesHere store v.name then
    Action.fail (.alreadyExists .scopeVariable v.name)
  else
    Action.modify fun store => store.modifyFrame scope fun frame =>
      { frame with bindings := frame.bindings.insert v.name v }

/-- Defines a variable by its type and value. A value that does not fit fails before a name
that is taken. -/
def define (scope : Scope) (name : String) (type : TypeName) (value : Value) (locked : Bool) :
    Action (Store β) Unit := do
  let v ← Action.read fun store => Variable.create store name type value
  scope.defineVariable { v with locked }

def assign (scope : Scope) (name : String) (value : Value) : Action (Store β) Unit := do
  let store ← Action.get
  match scope.owner? store name with
  | none => Action.fail (.notFound .scopeVariable name)
  | some owner =>
    match (store.frame owner).bindings.get? name with
    | none => Action.fail (.notFound .scopeVariable name)
    | some v =>
      let v ← Action.ofExcept (v.assign store value)
      Action.modify fun store => store.modifyFrame owner fun frame =>
        { frame with bindings := frame.bindings.insert name v }

def defineFunction (scope : Scope) (f : Function β) : Action (Store β) (Function β) := do
  let store ← Action.get
  if (store.frame scope).functions.contains f.name then
    Action.fail (.alreadyExists .scopeFunction f.name)
  else
    Action.modify fun store => store.modifyFrame scope fun frame =>
      { frame with functions := frame.functions.insert f.name f }
    return f

/-- Why a class cannot be defined here, if so: its qualified name is taken, or its simple name
stands for a class of another qualified name. -/
def classConflict? (scope : Scope) (store : Store β) (c : Class β) : Option Error :=
  let classes := (store.frame scope).classes
  if classes.contains c.qualifiedName then
    some (.alreadyExists .classDefinition c.qualifiedName)
  else
    match classes.get? c.name with
    | none => none
    | some existing =>
      let bound := (store.classOf existing).qualifiedName
      if bound = c.qualifiedName then none
      else some (.redeclared c.name bound c.qualifiedName)

def defineClass (scope : Scope) (c : Class β) : Action (Store β) ClassId := do
  let store ← Action.get
  match scope.classConflict? store c with
  | some e => Action.fail e
  | none =>
    let id ← Action.update (·.addClass c)
    Action.modify fun store => store.modifyFrame scope fun frame =>
      { frame with classes := (frame.classes.insert c.qualifiedName id).insert c.name id }
    return id

/-- Forgets all definitions of a scope. The scopes around it stay. -/
def clear (scope : Scope) : Action (Store β) Unit :=
  Action.modify fun store => store.modifyFrame scope fun frame =>
    { enclosing := frame.enclosing }

end ObjectModel.Scope
