import Keystroke.Event.Kind
import Keystroke.KeyCode

namespace Keystroke

/-- Nothing but `create` checks an event, and nothing is checked again later. `time` is in milliseconds
from an arbitrary start. `char` is the character, most often a single code point; U+FFFF stands for none. -/
structure Event where
  kind : Int
  time : Int
  modifiers : Int
  rawCode : Int
  keyCode : Int
  char : Text
  location : Int
  source : Option Text
deriving DecidableEq, Repr

namespace Event

def noChar : Text := [⟨0xFFFF, by decide⟩]

structure Invalid where
  kind : Catalogue.Reference
  keyCode : Int
  char : Text

def Invalid.message (e : Invalid) : Text :=
  Numeral.messageAround e.kind.text fun kind =>
    "Typed events need a character and no key code (kind=" ++ kind ++ ", key_code=" ++
      Numeral.markedHex e.keyCode ++ ", key_char=" ++ e.char.quoted ++ ")"

def Allowed (kind keyCode : Int) (char : Text) : Prop :=
  kind = Kind.typed.code → keyCode = KeyCode.undefined ∧ char ≠ noChar

instance (kind keyCode : Int) (char : Text) : Decidable (Allowed kind keyCode char) :=
  inferInstanceAs (Decidable (_ → _))

def create (kind : Catalogue.Reference) (time modifiers rawCode keyCode : Int) (char : Text)
    (location : Int) (source : Option Text) : Except Invalid Event :=
  if Allowed kind.value keyCode char then
    .ok { kind := kind.value, time, modifiers, rawCode, keyCode, char, location, source }
  else .error ⟨kind, keyCode, char⟩

def typed (char : Text) (time : Int) (modifiers rawCode location : Int := 0)
    (source : Option Text := none) : Except Invalid Event :=
  create Kind.typed.reference time modifiers rawCode KeyCode.undefined char location source

def pressed (keyCode time : Int) (modifiers rawCode : Int := 0) (char : Text := noChar)
    (location : Int := 0) (source : Option Text := none) : Except Invalid Event :=
  create Kind.pressed.reference time modifiers rawCode keyCode char location source

def released (keyCode time : Int) (modifiers rawCode : Int := 0) (char : Text := noChar)
    (location : Int := 0) (source : Option Text := none) : Except Invalid Event :=
  create Kind.released.reference time modifiers rawCode keyCode char location source

inductive Correction
  | rawCode (value : Int)
  | keyCode (value : Int)
  | char (value : Text)

def correct (e : Event) : Correction → Event
  | .rawCode value => { e with rawCode := value }
  | .keyCode value => { e with keyCode := value }
  | .char value => { e with char := value }

inductive AssignError
  | frozen
  | derived (part : Text)
  | envelope
  | ofClass (name : Text)
  | references
  | notClass (found : Text)
  | unknown (name : Text)

def AssignError.message : AssignError → Text
  | frozen => "can't set attribute"
  | derived part => "property '" ++ part ++ "' of 'KeyEvent' object has no setter"
  | envelope => "immutable type: 'InputEnvelope'"
  | ofClass name => "'KeyEvent' object attribute '" ++ name ++ "' is read-only"
  | references => "attribute '__weakref__' of 'KeyEvent' objects is not writable"
  | notClass found => "__class__ must be set to a class, not '" ++ found ++ "' object"
  | unknown name => "'KeyEvent' object has no attribute '" ++ name ++ "'"

def classNames : List String :=
  ["create", "typed", "pressed", "released", "param_string", "__annotations__", "__attrs_attrs__",
    "__attrs_own_setattr__", "__attrs_post_init__", "__attrs_props__", "__delattr__", "__dir__",
    "__doc__", "__eq__", "__format__", "__ge__", "__getattribute__", "__getstate__", "__gt__",
    "__hash__", "__init__", "__init_subclass__", "__le__", "__lt__", "__match_args__",
    "__module__", "__ne__", "__new__", "__reduce__", "__reduce_ex__", "__repr__", "__setattr__",
    "__setstate__", "__sizeof__", "__slots__", "__str__", "__subclasshook__"]

def refusal (name valueType : Text) : AssignError :=
  let isOneOf (names : List String) : Bool := names.any fun n => (n : Text) == name
  if isOneOf ["envelope", "key_location"] then .frozen
  else if isOneOf ["kind", "when", "modifiers", "source", "is_action_key", "key_text"] then
    .derived name
  else if name.startsWith "envelope." then .envelope
  else if isOneOf classNames then .ofClass name
  else if name = "__weakref__" then .references
  else if name = "__class__" then .notClass valueType
  else .unknown name

end Event

end Keystroke
