import ObjectModel.Store

/-! Name lookup through the scopes around a place, nearest first, and the listings of what one
scope defines. -/
namespace ObjectModel.Scope

variable {α β : Type}

def nearest? (scope : Scope) (store : Store β) (pick : Frame β → Option α) : Option α :=
  (store.chain scope).findSome? fun s => pick (store.frame s)

def lookupVariable (scope : Scope) (store : Store β) (name : String) : Except Error Variable :=
  match scope.nearest? store (·.bindings.get? name) with
  | some v => .ok v
  | none => .error (.notFound .scopeVariable name)

def lookupFunction (scope : Scope) (store : Store β) (name : String) :
    Except Error (Function β) :=
  match scope.nearest? store (·.functions.get? name) with
  | some f => .ok f
  | none => .error (.notFound .scopeFunction name)

/-- Classes are found by qualified or simple name alike. -/
def lookupClass (scope : Scope) (store : Store β) (name : String) : Except Error ClassId :=
  match scope.nearest? store (·.classes.get? name) with
  | some c => .ok c
  | none => .error (.notFound .classDefinition name)

def definesHere (scope : Scope) (store : Store β) (name : String) : Bool :=
  (store.frame scope).bindings.contains name

def owner? (scope : Scope) (store : Store β) (name : String) : Option Scope :=
  (store.chain scope).find? fun s => s.definesHere store name

def sees (scope : Scope) (store : Store β) (name : String) : Bool :=
  (scope.owner? store name).isSome

def depth (scope : Scope) (store : Store β) : Nat := (store.frame scope).enclosing.length

def isRoot (scope : Scope) (store : Store β) : Bool := (store.frame scope).enclosing.isEmpty

/-- The scope a number of levels outward, if there are so many. -/
def outward? (scope : Scope) (store : Store β) (levels : Nat) : Option Scope :=
  (store.chain scope)[levels]?

def variableNames (scope : Scope) (store : Store β) : List String :=
  sortNames (store.frame scope).bindings.names

def functionNames (scope : Scope) (store : Store β) : List String :=
  sortNames (store.frame scope).functions.names

/-- The qualified names of the classes defined here, each once. -/
def classNames (scope : Scope) (store : Store β) : List String :=
  sortNames ((store.frame scope).classes.values.map fun c => (store.classOf c).qualifiedName)

end ObjectModel.Scope
