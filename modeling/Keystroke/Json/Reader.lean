import Keystroke.Json.Token
import Keystroke.Json.Value

namespace Keystroke.Json

inductive Fault
  | syntaxError
  | integerTooLong (digits : Nat)
  | arrayTooDeep
  | objectTooDeep
deriving DecidableEq, Repr

def Fault.message : Fault → Text
  | syntaxError => "The text is not JSON"
  | integerTooLong digits =>
    Numeral.overLimit (": value has " ++ Numeral.decimal digits ++ " digits")
  | arrayTooDeep => tooDeep "array"
  | objectTooDeep => tooDeep "object"
where
  tooDeep (what : Text) : Text :=
    "maximum recursion depth exceeded while decoding a JSON " ++ what ++ " from a unicode string"

/-- A high surrogate and a low one next to it are one code point if both were escaped. -/
def stringText : List (Piece CodePoint) → Text
  | [] => []
  | .plain c :: ps => c :: stringText ps
  | .escaped c :: ps =>
    if c.isHighSurrogate then
      match ps with
      | .escaped low :: ps' =>
        if low.isLowSurrogate then ofPair c low :: stringText ps'
        else c :: stringText (.escaped low :: ps')
      | ps => c :: stringText ps
    else c :: stringText ps

def orFault {α : Type} : Option α → Except Fault α
  | some a => .ok a
  | none => .error .syntaxError

def Value.ofNumber (l : Literal) : Except Fault Value :=
  if l.isInteger then
    if Numeral.digitLimit < l.whole.length then .error (.integerTooLong l.whole.length)
    else .ok (.integer l.integer)
  else .ok (.real l.real)

def words : List (String × Value) :=
  [("null", .null), ("true", .bool true), ("false", .bool false), ("NaN", .real (.nan false)),
    ("Infinity", .real (.infinite false)), ("-Infinity", .real (.infinite true))]

def scalar (s : Text) : Except Fault (Value × Text) :=
  match words.findSome? fun (w, v) => (CodeUnit.after? w.toList s).map (v, ·) with
  | some found => .ok found
  | none => do
    let (l, r) ← orFault (number? s)
    return (← Value.ofNumber l, r)

def stringAt (s : Text) : Except Fault (Text × Text) := do
  let (ps, r) ← orFault (pieces? s)
  return (stringText ps, r)

def next (s : Text) : Except Fault (CodePoint × Text) :=
  match skipSpace s with
  | c :: r => .ok (c, r)
  | [] => .error .syntaxError

mutual

/-- A value at the front, with no space before it. So many arrays and objects may lie in one
another as `depth` says. -/
def valueAt : Nat → Nat → Text → Except Fault (Value × Text)
  | 0, _, _ => .error .syntaxError
  | fuel + 1, depth, s => do
    match s with
    | [] => .error .syntaxError
    | c :: r =>
      if c = '"' then
        let (t, r) ← stringAt r
        return (.string t, r)
      else if c = '\x7b' then
        if depth = 0 then .error .objectTooDeep
        let (c, r') ← next r
        if c = '\x7d' then return (.object [], r')
        let (members, r) ← membersAt fuel (depth - 1) [] r
        return (.object members, r)
      else if c = '[' then
        if depth = 0 then .error .arrayTooDeep
        let (c, r') ← next r
        if c = ']' then return (.array [], r')
        let (elements, r) ← elementsAt fuel (depth - 1) r
        return (.array elements, r)
      else scalar s

def elementsAt : Nat → Nat → Text → Except Fault (List Value × Text)
  | 0, _, _ => .error .syntaxError
  | fuel + 1, depth, s => do
    let (v, r) ← valueAt fuel depth (skipSpace s)
    let (c, r) ← next r
    if c = ']' then return ([v], r)
    else if c = ',' then
      let (vs, r) ← elementsAt fuel depth r
      return (v :: vs, r)
    else .error .syntaxError

/-- The members of an object on top of those that were read before, and its closing bracket. -/
def membersAt : Nat → Nat → List (Text × Value) → Text →
    Except Fault (List (Text × Value) × Text)
  | 0, _, _, _ => .error .syntaxError
  | fuel + 1, depth, done, s => do
    let (c, r) ← next s
    if c ≠ '"' then .error .syntaxError
    let (key, r) ← stringAt r
    let (c, r) ← next r
    if c ≠ ':' then .error .syntaxError
    let (v, r) ← valueAt fuel depth (skipSpace r)
    let done := Value.putMember key v done
    let (c, r) ← next r
    if c = '\x7d' then return (done, r)
    else if c = ',' then membersAt fuel depth done r
    else .error .syntaxError

end

/-- The value of a whole text. Beside the standard there are `NaN`, `Infinity` and `-Infinity`, and a
surrogate that is escaped on its own stays as it is. A byte order mark is no space. -/
def parse (t : Text) : Except Fault Value := do
  let (v, r) ← valueAt (2 * t.length + 2) nestingLimit (skipSpace t)
  if skipSpace r = [] then return v else .error .syntaxError

end Keystroke.Json
