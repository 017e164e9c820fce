import ObjectModel.Context
import ObjectModel.Unprintable

/-! Diagnostic descriptions of values, declarations, scopes, objects and contexts: records of
named fields, lists in brackets, and quoted texts. -/
namespace ObjectModel

variable {β : Type}

namespace Quoted

def byCode (c : Char) : String := "\\u\x7b" ++ Numeral.hexDigits c.toNat ++ "\x7d"

def escape (c : Char) : String :=
  if c = '"' then "\\\""
  else if c = '\\' then "\\\\"
  else if c = '\n' then "\\n"
  else if c = '\r' then "\\r"
  else if c = '\t' then "\\t"
  else if c.toNat = 0 then "\\0"
  else if Unprintable.isUnprintable c then byCode c
  else c.toString

def quote (text : String) : String := "\"" ++ String.join (text.toList.map escape) ++ "\""

end Quoted

namespace Description

def record (name : String) (fields : List (String × String)) : String :=
  name ++ " \x7b " ++ ", ".intercalate (fields.map fun (field, text) => field ++ ": " ++ text)
    ++ " \x7d"

def list (items : List String) : String := "[" ++ ", ".intercalate items ++ "]"

def texts (items : List String) : String := list (items.map Quoted.quote)

def truth (b : Bool) : String := if b then "true" else "false"

def optional : Option String → String
  | none => "None"
  | some text => "Some(" ++ text ++ ")"

end Description

open Description

def TypeName.describe : TypeName → String
  | .any => "Any"
  | .nothing => "Nothing"
  | .boolean => "Boolean"
  | .integer => "Integer"
  | .double => "Double"
  | .string => "String"
  | .named name => "Class(" ++ Quoted.quote name ++ ")"

/-- Texts are quoted, objects carry a mark for their address, and the rest is as shown. -/
def Value.describe (store : Store β) : Value → String
  | .string s => Quoted.quote s
  | .object o => "<" ++ (store.definitionOf o).qualifiedName ++ " object #ADDRESS>"
  | other => other.text store

def Visibility.describe : Visibility → String
  | .shown => "Public"
  | .hidden => "Private"

def Variable.describe (store : Store β) (v : Variable) : String :=
  record "Variable"
    [("name", Quoted.quote v.name), ("ty", v.type.describe), ("value", v.value.describe store),
     ("locked", truth v.locked), ("visibility", v.visibility.describe),
     ("documentation", texts v.documentation)]

def FunctionKind.describe : FunctionKind → String
  | .free => "Free"
  | .shared => "Shared"
  | .method => "Instance"

def Parameter.describe (p : Parameter) : String :=
  record "Parameter" [("name", Quoted.quote p.name), ("ty", p.type.describe)]

def Body.describe : Body β → String
  | .native _ => "Native(..)"
  | .interpreted _ => "Interpreted(..)"

def Function.describe (f : Function β) : String :=
  record "Function"
    [("name", Quoted.quote f.name), ("return_type", f.returnType.describe),
     ("parameters", list (f.parameters.map Parameter.describe)), ("varargs", truth f.variadic),
     ("body", f.body.describe), ("kind", f.kind.describe),
     ("documentation", texts f.documentation)]

def ClassId.describe (c : ClassId) (store : Store β) : String :=
  let it := store.classOf c
  record "Class"
    [("qualified_name", Quoted.quote it.qualifiedName), ("parents", texts it.parents),
     ("mro", optional ((c.recorded? store).map texts)),
     ("public_variables", texts it.publicVariables.names),
     ("private_variables", texts it.privateVariables.names),
     ("public_functions", texts it.publicFunctions.names),
     ("private_functions", texts it.privateFunctions.names),
     ("shared_variables", texts it.sharedVariables.names),
     ("shared_functions", texts it.sharedFunctions.names)]

def Handle.describe (h : Handle) : String := "ObjectId(" ++ h.text ++ ")"

def Object.describe (o : Object) (store : Store β) : String :=
  record "Object"
    [("class", Quoted.quote (store.definitionOf o).qualifiedName),
     ("id", optional ((store.object o).handle.map Handle.describe)),
     ("members", texts (o.memberNames store)), ("detached", truth (o.isDetached store))]

def Scope.describe (scope : Scope) (store : Store β) : String :=
  record "Scope"
    [("depth", Numeral.decimalDigits (scope.depth store)),
     ("variables", texts (scope.variableNames store)),
     ("functions", texts (scope.functionNames store)),
     ("classes", texts (scope.classNames store))]

def Caller.describe : Caller → String
  | .outside => "Outside"
  | .member qualified => "Class(" ++ Quoted.quote qualified ++ ")"

def Registry.describe (r : Registry) (store : Store β) : String :=
  record "InstanceRegistry" [("len", Numeral.decimalDigits (r.size store))]

def Runtime.describeConfig (r : Runtime) : String :=
  record "RuntimeConfig" [("max_call_depth", Numeral.decimalDigits r.maxCallDepth)]

def Runtime.describe (r : Runtime) (store : Store β) : String :=
  record "Runtime"
    [("global", r.global.describe store), ("registry", r.registry.describe store),
     ("config", r.describeConfig), ("evaluator", truth r.evaluator)]

def Context.describe (ctx : Context) (store : Store β) : String :=
  record "Context"
    [("scope", ctx.scope.describe store), ("caller", ctx.caller.describe),
     ("receiver", optional (ctx.receiver.map (·.describe store))),
     ("depth", Numeral.decimalDigits ctx.depth)]

end ObjectModel
