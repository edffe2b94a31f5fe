import Keystroke.Numeral
import Keystroke.Text.Quoted

namespace Keystroke

/-- Two names may share a value; the first of them is then the name of the value. -/
structure Catalogue where
  title : String
  members : List (String × Int)

namespace Catalogue

inductive Error
  | unknownName (name : Text)
  | unknownValue (title : String) (value : Int)

def Error.message : Error → Text
  | .unknownName name => name.quoted
  | .unknownValue title value =>
    Numeral.messageAround (Numeral.written value) (· ++ " is not a valid " ++ title)

def nameOf? (c : Catalogue) (value : Int) : Option String :=
  (c.members.find? (·.2 == value)).map (·.1)

def valueOf? (c : Catalogue) (name : Text) : Option Int :=
  (c.members.find? fun m => (m.1 : Text) == name).map (·.2)

def ofValue (c : Catalogue) (value : Int) : Except Error (String × Int) :=
  match c.nameOf? value with
  | some name => .ok (name, value)
  | none => .error (.unknownValue c.title value)

def ofName (c : Catalogue) (name : Text) : Except Error (String × Int) :=
  match c.valueOf? name with
  | some value => c.ofValue value
  | none => .error (.unknownName name)

/-- The members with a value from `first` up to, but not including, `last`, aliases among them, in
order of value and then of name. -/
def between (c : Catalogue) (first last : Int) : List (String × Int) :=
  (c.members.filter fun m => first ≤ m.2 && m.2 < last).mergeSort fun a b =>
    a.2 < b.2 || (a.2 == b.2 && a.1 ≤ b.1)

/-- An integer as it was given: plain, or as a member of a catalogue. The difference shows in
messages alone. -/
inductive Reference
  | plain (value : Int)
  | member (title name : String) (value : Int)
deriving DecidableEq, Repr

namespace Reference

def value : Reference → Int
  | plain value | member _ _ value => value

def around (shown : Text) : Reference → Text
  | plain _ => shown
  | member title name _ => "<" ++ title ++ "." ++ name ++ ": " ++ shown ++ ">"

def text (r : Reference) : Except Numeral.TooManyDigits Text :=
  (Numeral.written r.value).map r.around

end Reference

def reference (c : Catalogue) (name : Text) : Except Error Reference := do
  let (name, value) ← c.ofName name
  return .member c.title name value

end Catalogue

end Keystroke
