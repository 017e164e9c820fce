import ObjectModel.Numeral

/-! The causes of failure and their messages. -/
namespace ObjectModel

inductive Entity where
  | scopeVariable
  | scopeFunction
  | classDefinition
  | memberVariable
  | memberFunction
  | registeredObject
  deriving DecidableEq, Repr

def Entity.word : Entity → String
  | .scopeVariable => "variable"
  | .scopeFunction => "function"
  | .classDefinition => "class"
  | .memberVariable => "member variable"
  | .memberFunction => "member function"
  | .registeredObject => "object"

inductive CastNote where
  | notInteger (text : String)
  | notNumber (text : String)
  | outsideHierarchy (className : String) (qualified : String)
  | initializing (name : String)
  | argument (parameter : String) (function : String)
  deriving DecidableEq, Repr

def CastNote.message : CastNote → String
  | .notInteger text => "'" ++ text ++ "' is not an integer"
  | .notNumber text => "'" ++ text ++ "' is not a number"
  | .outsideHierarchy className qualified =>
    className ++ " is not in the hierarchy of " ++ qualified
  | .initializing name => "cannot initialize variable '" ++ name ++ "'"
  | .argument parameter function => "argument '" ++ parameter ++ "' of '" ++ function ++ "'"

/-- Why a class has no linear order of its ancestors. -/
inductive HierarchyFault where
  /-- A class inherits from itself; the names lead to it from where the search began. -/
  | cycle (path : List String)
  /-- Each of these heads stands behind another name in some parent's order. -/
  | conflict (heads : List String)
  deriving DecidableEq, Repr

def HierarchyFault.message : HierarchyFault → String
  | .cycle path => "inheritance cycle through " ++ " -> ".intercalate path
  | .conflict heads =>
    "cannot create a consistent method resolution order (blocked heads: "
      ++ ", ".intercalate heads ++ ")"

inductive Error where
  | notFound (kind : Entity) (name : String)
  | alreadyExists (kind : Entity) (name : String)
  /-- A simple name is bound to a class of another qualified name. -/
  | redeclared (name : String) (existing : String) (incoming : String)
  | inaccessible (kind : Entity) (name : String)
  | locked (name : String)
  /-- The notes go from the outermost circumstance to the innermost cause. -/
  | cast (source : String) (target : String) (notes : List CastNote)
  | inconsistentHierarchy (className : String) (fault : HierarchyFault)
  | arityMismatch (function : String) (expected : Nat) (got : Nat) (variadic : Bool)
  | stackOverflow (depth : Nat) (limit : Nat)
  | noEvaluator (function : String)
  /-- A failure that a body or a handler raised itself. -/
  | raised (text : String)
  deriving DecidableEq, Repr

namespace Error

def message : Error → String
  | .notFound kind name => "undefined " ++ kind.word ++ " '" ++ name ++ "'"
  | .alreadyExists kind name =>
    kind.word ++ " '" ++ name ++ "' already defined in current scope"
  | .redeclared name existing incoming =>
    "class " ++ name ++ " (" ++ existing ++ ") redeclared as " ++ name ++ " (" ++ incoming
      ++ ") in current scope"
  | .inaccessible kind name => kind.word ++ " '" ++ name ++ "' is private"
  | .locked name => "cannot assign to locked variable '" ++ name ++ "'"
  | .cast source target notes =>
    ": ".intercalate (("cannot cast " ++ source ++ " to " ++ target) :: notes.map CastNote.message)
  | .inconsistentHierarchy className fault =>
    "multiple inheritance conflict in class " ++ className ++ ": " ++ fault.message
  | .arityMismatch function expected got variadic =>
    "function '" ++ function ++ "' expects " ++ (if variadic then "at least " else "")
      ++ Numeral.decimalDigits expected ++ " arguments, got " ++ Numeral.decimalDigits got
  | .stackOverflow depth limit =>
    "stack overflow: call depth " ++ Numeral.decimalDigits depth ++ " exceeds maximum "
      ++ Numeral.decimalDigits limit
  | .noEvaluator function =>
    "function '" ++ function ++ "' has an interpreted body but no evaluator is installed"
  | .raised text => text

/-- Says of a cast that failed what it was for; other failures stay as they are. -/
def withNote (note : CastNote) : Error → Error
  | .cast source target notes => .cast source target (note :: notes)
  | other => other

def isNotFound : Error → Bool
  | .notFound _ _ => true
  | _ => false

def isAlreadyExists : Error → Bool
  | .alreadyExists _ _ | .redeclared _ _ _ => true
  | _ => false

def isInaccessible : Error → Bool
  | .inaccessible _ _ => true
  | _ => false

def isLocked : Error → Bool
  | .locked _ => true
  | _ => false

def isCast : Error → Bool
  | .cast _ _ _ => true
  | _ => false

def isInconsistentHierarchy : Error → Bool
  | .inconsistentHierarchy _ _ => true
  | _ => false

end Error
end ObjectModel
