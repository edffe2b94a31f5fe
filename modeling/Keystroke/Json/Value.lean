import Keystroke.Binary64.Decimal
import Keystroke.Text.Quoted

namespace Keystroke.Json

/-- The members of an object stand in the order in which their keys first came. -/
inductive Value
  | null
  | bool (b : Bool)
  | integer (n : Int)
  | real (x : Binary64)
  | string (t : Text)
  | array (elements : List Value)
  | object (members : List (Text × Value))
deriving Repr

namespace Value

def typeName : Value → Text
  | null => "NoneType"
  | bool _ => "bool"
  | integer _ => "int"
  | real _ => "float"
  | string _ => "str"
  | array _ => "list"
  | object _ => "dict"

def member? (key : Text) (members : List (Text × Value)) : Option Value :=
  (members.find? (·.1 == key)).map (·.2)

/-- The members with a new value under the key, where the key stands or else at the end. -/
def putMember (key : Text) (value : Value) : List (Text × Value) → List (Text × Value)
  | [] => [(key, value)]
  | m :: ms => if m.1 = key then (key, value) :: ms else m :: putMember key value ms

mutual

def literal : Value → Text
  | null => "None"
  | bool b => if b then "True" else "False"
  | integer n => Numeral.decimal n
  | real x => x.text
  | string t => t.quoted
  | array elements => "[" ++ Text.joined ", " (literals elements) ++ "]"
  | object members => "\x7b" ++ Text.joined ", " (memberLiterals members) ++ "\x7d"

def literals : List Value → List Text
  | [] => []
  | v :: vs => literal v :: literals vs

def memberLiterals : List (Text × Value) → List Text
  | [] => []
  | (key, v) :: ms => (key.quoted ++ ": " ++ literal v) :: memberLiterals ms

end

def asText : Value → Text
  | string t => t
  | v => literal v

end Value

end Keystroke.Json
