import Keystroke.Catalogue

namespace Keystroke

inductive Modifier
  | shift | control | metaKey | alt | button1 | button2 | button3 | button4 | button5
deriving DecidableEq, Repr

namespace Modifier

/-- In the order in which they are rendered, which is the order of their bits. -/
def all : List Modifier :=
  [shift, control, metaKey, alt, button1, button2, button3, button4, button5]

def bit : Modifier → Nat
  | shift => 0 | control => 1 | metaKey => 2 | alt => 3
  | button1 => 4 | button2 => 5 | button3 => 6 | button4 => 7 | button5 => 8

def name : Modifier → String
  | shift => "SHIFT" | control => "CTRL" | metaKey => "META" | alt => "ALT"
  | button1 => "BUTTON1" | button2 => "BUTTON2" | button3 => "BUTTON3" | button4 => "BUTTON4"
  | button5 => "BUTTON5"

def catalogue : Catalogue := ⟨"Modifier", all.map fun m => (m.name, 2 ^ m.bit)⟩

def labelId : Modifier → Text
  | shift => "shift" | control => "control" | metaKey => "meta" | alt => "alt"
  | button1 => "button1" | button2 => "button2" | button3 => "button3" | button4 => "button4"
  | button5 => "button5"

def label : Modifier → Text
  | shift => "Shift" | control => "Ctrl" | metaKey => "Meta" | alt => "Alt"
  | button1 => "Button1" | button2 => "Button2" | button3 => "Button3" | button4 => "Button4"
  | button5 => "Button5"

/-- Whether the flag is set. A negative mask has all high bits set. -/
def isIn (mask : Int) (m : Modifier) : Bool := mask / 2 ^ m.bit % 2 == 1

end Modifier

end Keystroke
