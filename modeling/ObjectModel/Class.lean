import ObjectModel.Function
import ObjectModel.Table

/-! Class definitions: names, declared parents, and the tables of members. The identity under
which code accesses members is that of its class, or none. -/
namespace ObjectModel

/-- The name of a class in its module; without a module it is the simple name. -/
def qualify (modulePath name : String) : String :=
  if modulePath = "" then name else modulePath ++ "." ++ name

inductive Caller where
  | outside
  | member (qualified : String)
  deriving DecidableEq, Repr, Inhabited

namespace Caller

def text : Caller → String
  | .outside => "<outside>"
  | .member qualified => qualified

def is (c : Caller) (qualified : String) : Bool := c == .member qualified

end Caller

structure Class (β : Type) where
  name : String
  modulePath : String := ""
  parents : List String := []
  documentation : List String := []
  publicVariables : Table Variable := .empty
  privateVariables : Table Variable := .empty
  publicFunctions : Table (Function β) := .empty
  privateFunctions : Table (Function β) := .empty
  sharedVariables : Table Variable := .empty
  sharedFunctions : Table (Function β) := .empty
  /-- Code that supplies methods which no class of the hierarchy declares. -/
  fallback : Option β := none
  deriving Repr

namespace Class

variable {β : Type}

instance : Inhabited (Class β) := ⟨{ name := "" }⟩

def qualifiedName (c : Class β) : String := qualify c.modulePath c.name

def identity (c : Class β) : Caller := .member c.qualifiedName

/-- Declares a variable of each instance, in the table that its visibility selects. -/
def declareVariable (c : Class β) (v : Variable) : Class β :=
  match v.visibility with
  | .shown => { c with publicVariables := c.publicVariables.insert v.name v }
  | .hidden => { c with privateVariables := c.privateVariables.insert v.name v }

/-- Declares a variable of the class itself, whatever its visibility. -/
def declareSharedVariable (c : Class β) (v : Variable) : Class β :=
  { c with sharedVariables := c.sharedVariables.insert v.name v }

def declareFunction (c : Class β) (f : Function β) (visibility : Visibility) : Class β :=
  match visibility with
  | .shown => { c with publicFunctions := c.publicFunctions.insert f.name f.asMethod }
  | .hidden => { c with privateFunctions := c.privateFunctions.insert f.name f.asMethod }

def declareSharedFunction (c : Class β) (f : Function β) : Class β :=
  { c with sharedFunctions := c.sharedFunctions.insert f.name (f.withKind .shared) }

/-- What a class says of a method name to a caller. -/
inductive Offer (β : Type) where
  | found (f : Function β)
  | denied
  | missing
  deriving Repr

/-- Public methods come first, then private ones, which only the class itself may use, then
shared ones. A private method hides a shared one of its name. -/
def offer (c : Class β) (name : String) (caller : Caller) : Offer β :=
  match c.publicFunctions.get? name with
  | some f => .found f
  | none =>
    match c.privateFunctions.get? name with
    | some f => if caller.is c.qualifiedName then .found f else .denied
    | none =>
      match c.sharedFunctions.get? name with
      | some f => .found f
      | none => .missing

/-- The method that construction runs: the public one named like the class. -/
def constructor? (c : Class β) : Option (Function β) := c.publicFunctions.get? c.name

end Class
end ObjectModel
