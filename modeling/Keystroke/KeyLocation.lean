import Keystroke.Catalogue

namespace Keystroke

inductive KeyLocation
  | unknown | standard | left | right | numpad
deriving DecidableEq, Repr

namespace KeyLocation

def all : List KeyLocation := [unknown, standard, left, right, numpad]

def code : KeyLocation → Int
  | unknown => 0 | standard => 1 | left => 2 | right => 3 | numpad => 4

def name : KeyLocation → String
  | unknown => "UNKNOWN" | standard => "STANDARD" | left => "LEFT" | right => "RIGHT"
  | numpad => "NUMPAD"

def catalogue : Catalogue := ⟨"KeyLocation", all.map fun l => (l.name, l.code)⟩

def ofCode (code : Int) : KeyLocation := (all.find? (·.code == code)).getD unknown

end KeyLocation

end Keystroke
