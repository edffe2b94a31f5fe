import Keystroke.Event
import Keystroke.KeyLocation
import Keystroke.KeyName

namespace Keystroke.Event

/-- Characters shown by the name of their key. -/
def namedChars : List Int :=
  [KeyCode.enter, KeyCode.backSpace, KeyCode.tab, KeyCode.cancel, KeyCode.delete]

def kindText (kind : Int) : Text :=
  match Kind.ofCode? kind with
  | some k => k.name
  | none => "unknown type"

def charText (char : Text) (labels : Labels) : Text :=
  match char with
  | [c] =>
    if (c.val : Int) ∈ namedChars then KeyCode.text c.val labels else "'" ++ char ++ "'"
  | _ => "'" ++ char ++ "'"

def parts (e : Event) (labels : Labels) (keyCode rawCode : Text) (modifiers : Option Text) :
    List Text :=
  [kindText e.kind,
    "key_code=" ++ keyCode,
    "key_text=" ++ KeyCode.text e.keyCode labels,
    "key_char=" ++ charText e.char labels] ++
  (modifiers.toList.map fun shown => ("modifiers=" : Text) ++ shown) ++
  ["key_location=" ++ Text.ofString (KeyLocation.ofCode e.location).name,
    "raw_code=" ++ rawCode]

def describeWith (e : Event) (labels : Labels)
    (render : Int → Labels → Except Numeral.TooManyDigits Text) :
    Except Numeral.TooManyDigits Text := do
  let keyCode ← Numeral.written e.keyCode
  let modifiers ←
    if e.modifiers = 0 then pure none else (render e.modifiers labels).map some
  let rawCode ← Numeral.written e.rawCode
  return Text.joined "," (e.parts labels keyCode rawCode modifiers)

def describe (e : Event) (labels : Labels) : Except Numeral.TooManyDigits Text :=
  e.describeWith labels fun mask labels => .ok (Modifier.maskText mask labels)

def keyText (e : Event) : Text := KeyCode.text e.keyCode .empty

def isActionKey (e : Event) : Bool := KeyCode.isAction e.keyCode

def text (e : Event) : Except Numeral.TooManyDigits Text :=
  (e.describe .empty).map fun description => "KeyEvent[" ++ description ++ "]"

inductive Renderer
  | labelled | number | unlabelled
deriving DecidableEq, Repr

def Renderer.render : Renderer → Int → Labels → Except Numeral.TooManyDigits Text
  | labelled, mask, labels => .ok (Modifier.maskText mask labels)
  | number, mask, _ => (Numeral.written mask).map fun shown => "<" ++ shown ++ ">"
  | unlabelled, mask, _ => .ok (Modifier.maskText mask .empty)

end Keystroke.Event
