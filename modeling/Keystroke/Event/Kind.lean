import Keystroke.Catalogue

namespace Keystroke

/-- A character was produced, a key went down, a key went up. -/
inductive Kind
  | typed | pressed | released
deriving DecidableEq, Repr

namespace Kind

def all : List Kind := [typed, pressed, released]

def code : Kind → Int
  | typed => 2400 | pressed => 2401 | released => 2402

def name : Kind → String
  | typed => "TYPED" | pressed => "PRESSED" | released => "RELEASED"

def catalogue : Catalogue := ⟨"KeyEventKind", all.map fun k => (k.name, k.code)⟩

def ofCode? (code : Int) : Option Kind := all.find? (·.code == code)

def reference (k : Kind) : Catalogue.Reference := .member catalogue.title k.name k.code

end Kind

end Keystroke
