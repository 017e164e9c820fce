import ObjectModel.Value

/-! Types by name, and variables: a value under a declared type, with a lock and a visibility. How a
variable is made and assigned depends on casts, and is said there. -/
namespace ObjectModel

inductive TypeName where
  | any
  | nothing
  | boolean
  | integer
  | double
  | string
  /-- Instances of a class, by its simple or qualified name. -/
  | named (name : String)
  deriving DecidableEq, Repr, Inhabited

namespace TypeName

/-- The type that a text denotes: a built-in type, else the class of that name. No text at all
leaves the type open. -/
def parse (text : String) : TypeName :=
  if text = "" then .any
  else if text = "NOTHIN" then .nothing
  else if text = "BOOL" then .boolean
  else if text = "INTEGR" then .integer
  else if text = "DUBBLE" then .double
  else if text = "STRIN" then .string
  else .named text

def text : TypeName → String
  | .any => ""
  | .nothing => "NOTHIN"
  | .boolean => "BOOL"
  | .integer => "INTEGR"
  | .double => "DUBBLE"
  | .string => "STRIN"
  | .named name => name

def isAny (t : TypeName) : Bool := t == .any

def isBuiltin : TypeName → Bool
  | .named _ => false
  | _ => true

end TypeName

/-- Whether a member is open to every caller or to its own class alone. -/
inductive Visibility where
  | shown
  | hidden
  deriving DecidableEq, Repr, Inhabited

structure Variable where
  name : String
  type : TypeName
  value : Value
  locked : Bool := false
  visibility : Visibility := .shown
  documentation : List String := []
  deriving DecidableEq, Repr, Inhabited

namespace Variable

def dynamic (name : String) (value : Value) : Variable := { name, type := .any, value }

def lock (v : Variable) : Variable := { v with locked := true }

def hide (v : Variable) : Variable := { v with visibility := .hidden }

def document (v : Variable) (lines : List String) : Variable := { v with documentation := lines }

def isShown (v : Variable) : Bool := v.visibility == .shown

end Variable
end ObjectModel
