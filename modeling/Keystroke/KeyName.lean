import Keystroke.KeyTable.Standard
import Keystroke.Labels
import Keystroke.Modifier

namespace Keystroke

namespace KeyCode

def entryText (code : Int) (labels : Labels) : Option KeyInfo → Text
  | none =>
    labels.resolve KeyTable.unknownId KeyTable.unknownLabel ++ " keyCode: 0x" ++ Numeral.hex code
  | some info =>
    match info.labelId with
    | none => info.label
    | some id => labels.resolve id info.label

def rowText (code : Int) (labels : Labels) : Text :=
  entryText code labels (KeyTable.standard.find? code)

/-- A digit of the number pad is named after the same digit of the top row. -/
def text (code : Int) (labels : Labels) : Text :=
  if numpadDigits.contains code then
    labels.resolve KeyTable.numpadId KeyTable.numpadLabel ++ " " ++
      rowText (code - numpadOffset) labels
  else rowText code labels

def isAction (code : Int) : Bool := (KeyTable.standard.find? code).any (·.action)

end KeyCode

def Modifier.maskText (mask : Int) (labels : Labels) : Text :=
  Text.joined "+" ((all.filter (·.isIn mask)).map fun m => labels.resolve m.labelId m.label)

end Keystroke
