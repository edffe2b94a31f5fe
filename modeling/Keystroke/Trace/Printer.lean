import Keystroke.Text.Utf8
import Keystroke.Trace.Record

namespace Keystroke.Trace

inductive EncodeError
  | notOneChar (length : Nat)
  | tooManyDigits (e : Numeral.TooManyDigits)
  | surrogate
deriving DecidableEq, Repr

def EncodeError.message : EncodeError → Text
  | notOneChar n =>
    "ord() expected a character, but string of length " ++ Numeral.decimal n ++ " found"
  | tooManyDigits e => e.message
  | surrogate => "A surrogate has no form in UTF-8"

def escapedChar (c : CodePoint) : Text :=
  if c = '"' then "\\\""
  else if c = '\\' then "\\\\"
  else if c = '\x08' then "\\b"
  else if c = '\x0c' then "\\f"
  else if c = '\n' then "\\n"
  else if c = '\r' then "\\r"
  else if c = '\t' then "\\t"
  else if c.val < 0x20 then "\\u" ++ Numeral.zeroPadded 4 (Numeral.natural 16 c.val)
  else [c]

def string (t : Text) : Text := "\"" ++ t.flatMap escapedChar ++ "\""

def sourceText : Option Text → Text
  | none => "null"
  | some t => string t

def valueText (e : Event) (c : CodePoint) : Field → Text
  | .kind => Numeral.decimal e.kind
  | .int .time => Numeral.decimal e.time
  | .int .modifiers => Numeral.decimal e.modifiers
  | .int .rawCode => Numeral.decimal e.rawCode
  | .int .keyCode => Numeral.decimal e.keyCode
  | .int .char => Numeral.decimal c.val
  | .int .location => Numeral.decimal e.location
  | .source => sourceText e.source

def member (e : Event) (c : CodePoint) (f : Field) : Text :=
  "\"" ++ f.name ++ "\":" ++ valueText e c f

def lineText (e : Event) (c : CodePoint) : Text :=
  "\x7b" ++ Text.joined "," (Field.all.map (member e c)) ++ "\x7d\n"

def integers (e : Event) : List Int :=
  [e.kind, e.time, e.modifiers, e.rawCode, e.keyCode, e.location]

def encodeLine (e : Event) : Except EncodeError Bytes :=
  match e.char with
  | [c] =>
    if ∀ z ∈ integers e, Numeral.Fits z then
      match Utf8.encode? (lineText e c) with
      | some line => .ok line
      | none => .error .surrogate
    else .error (.tooManyDigits ⟨⟩)
  | char => .error (.notOneChar char.length)

def encode : List Event → Except EncodeError Bytes
  | [] => .ok []
  | e :: es => do
    let line ← encodeLine e
    return line ++ (← encode es)

end Keystroke.Trace
