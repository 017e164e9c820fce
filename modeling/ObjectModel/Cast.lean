import ObjectModel.Double.Decimal
import ObjectModel.Double.Shortest
import ObjectModel.Scope.Lookup

/-! The text of values, membership of objects in classes, and casts between the kinds of values. -/
namespace ObjectModel

variable {β : Type}

namespace Object

def endsInName (qualified name : String) : Bool :=
  ('.' :: name.toList).isSuffixOf qualified.toList

/-- Whether an object belongs to a class of this name: by qualified name, by the last part of
one, or by what the name means in the object's own scope. -/
def isInstanceOf (o : Object) (store : Store β) (name : String) : Bool :=
  let it := store.object o
  it.hierarchy.contains name
    || it.hierarchy.any (endsInName · name)
    || match it.scope with
      | none => false
      | some scope =>
        match scope.lookupClass store name with
        | .ok c => it.hierarchy.contains (store.classOf c).qualifiedName
        | .error _ => false

def isDetached (o : Object) (store : Store β) : Bool := (store.object o).scope.isNone

end Object

namespace Value

def booleanText (b : Bool) : String := if b then "YEZ" else "NO"

def text (store : Store β) : Value → String
  | .nothing => TypeName.nothing.text
  | .boolean b => booleanText b
  | .integer n => Numeral.decimal n.toInt
  | .double x => x.text
  | .string s => s
  | .object o => "<" ++ (store.definitionOf o).name ++ " object>"

def typeText (store : Store β) : Value → String
  | .nothing => TypeName.nothing.text
  | .boolean _ => TypeName.boolean.text
  | .integer _ => TypeName.integer.text
  | .double _ => TypeName.double.text
  | .string _ => TypeName.string.text
  | .object o => (store.definitionOf o).name

/-- A text is false when it spells the negative answer, in any case, or is empty. -/
def booleanOfText (s : String) : Bool :=
  if s.toUpper = "YEZ" then true
  else if s.toUpper = "NO" then false
  else s != ""

def castNothing : TypeName → Except Error Value
  | .any | .nothing => .ok .nothing
  | .boolean => .ok (.boolean false)
  | .integer => .ok (.integer 0)
  | .double => .ok (.double .zero)
  | .string => .ok (.string "")
  | .named name => .error (.cast TypeName.nothing.text name [])

def castBoolean (b : Bool) : TypeName → Except Error Value
  | .any | .boolean => .ok (.boolean b)
  | .integer => .ok (.integer (if b then 1 else 0))
  | .double => .ok (.double (if b then .one else .zero))
  | .string => .ok (.string (booleanText b))
  | target => .error (.cast TypeName.boolean.text target.text [])

def castInteger (n : Int64) : TypeName → Except Error Value
  | .any | .integer => .ok (.integer n)
  | .double => .ok (.double (Double.ofInt64 n))
  | .boolean => .ok (.boolean (n != 0))
  | .string => .ok (.string (Numeral.decimal n.toInt))
  | target => .error (.cast TypeName.integer.text target.text [])

def castDouble (x : Double) : TypeName → Except Error Value
  | .any | .double => .ok (.double x)
  | .integer => .ok (.integer x.toInt64)
  | .boolean => .ok (.boolean (!x.isZero))
  | .string => .ok (.string x.text)
  | target => .error (.cast TypeName.double.text target.text [])

def castText (s : String) : TypeName → Except Error Value
  | .any | .string => .ok (.string s)
  | .boolean => .ok (.boolean (booleanOfText s))
  | .integer =>
    match Numeral.int64? s with
    | some n => .ok (.integer n)
    | none => .error (.cast TypeName.string.text TypeName.integer.text [.notInteger s])
  | .double =>
    match Double.read? s with
    | some x => .ok (.double x)
    | none => .error (.cast TypeName.string.text TypeName.double.text [.notNumber s])
  | target => .error (.cast TypeName.string.text target.text [])

/-- An object has a text and is true; it is of each class that it belongs to. -/
def castObject (store : Store β) (o : Object) : TypeName → Except Error Value
  | .any => .ok (.object o)
  | .string => .ok (.string (text store (.object o)))
  | .boolean => .ok (.boolean true)
  | .named name =>
    if o.isInstanceOf store name then .ok (.object o)
    else
      let definition := store.definitionOf o
      .error (.cast definition.name name [.outsideHierarchy name definition.qualifiedName])
  | target => .error (.cast (store.definitionOf o).name target.text [])

/-- The value as one of the target type. Every value has the open type and its own; truth,
numbers and texts convert into one another where the conversion has an answer. -/
def cast (store : Store β) (v : Value) (target : TypeName) : Except Error Value :=
  match v with
  | .nothing => castNothing target
  | .boolean b => castBoolean b target
  | .integer n => castInteger n target
  | .double x => castDouble x target
  | .string s => castText s target
  | .object o => castObject store o target

end Value
end ObjectModel
