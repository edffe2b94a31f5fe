import Keystroke.Numeral.Literal
import Keystroke.Text.Blank
import Keystroke.Text.Digit

namespace Keystroke.Argument

def asciiDigits (t : Text) : Text :=
  t.map fun c => match c.decimalDigit? with
    | some d => .ofDigit d
    | none => c

def signed : Text → Bool × Text
  | c :: t => if c = '-' then (true, t) else if c = '+' then (false, t) else (false, c :: t)
  | [] => (false, [])

/-- The digits of a run in which single underscores may stand between digits. -/
def digitRun? (base : Nat) : Text → Option (List Nat)
  | [] => none
  | c :: t => do
    let d ← c.digit? base
    match t with
    | [] => return [d]
    | u :: t' => return d :: (← if u = '_' then digitRun? base t' else digitRun? base (u :: t'))

/-- A number after its base mark; one underscore may follow the mark. -/
def marked? (base : Nat) : Text → Option Nat
  | c :: t => (digitRun? base (if c = '_' then t else c :: t)).map (Numeral.value base)
  | [] => none

/-- A decimal number. Only zero may begin with a zero. -/
def decimal? (t : Text) : Option Nat := do
  let ds ← digitRun? 10 t
  let n := Numeral.value 10 ds
  if Numeral.digitLimit < ds.length then none
  else if ds.head? = some 0 ∧ n ≠ 0 then none
  else return n

def magnitude? (t : Text) : Option Nat :=
  match t with
  | z :: m :: rest =>
    if z = '0' then
      if m = 'x' ∨ m = 'X' then marked? 16 rest
      else if m = 'o' ∨ m = 'O' then marked? 8 rest
      else if m = 'b' ∨ m = 'B' then marked? 2 rest
      else decimal? t
    else decimal? t
  | _ => decimal? t

def integer? (t : Text) : Option Int := do
  let (negative, body) := signed (asciiDigits t).trimmed
  let n : Int := Int.ofNat (← magnitude? body)
  return if negative then -n else n

def isDigit (c : CodePoint) : Bool := (CodeUnit.digit? c).isSome

def joined? (afterDigit : Bool) : Text → Option Text
  | [] => some []
  | c :: t =>
    if c = '_' then
      if afterDigit && (t.head?.any isDigit) then joined? false t else none
    else (joined? (isDigit c) t).map (c :: ·)

def lowered (t : Text) : Text :=
  t.map fun c => if 0x41 ≤ c.val ∧ c.val ≤ 0x5A then (CodePoint.ofNat? (c.val + 32)).getD c else c

def realLiteral? (negative : Bool) (t : Text) : Option Literal :=
  let (whole, r) := CodeUnit.spanDigits t
  let (fraction, r) := match r with
    | c :: r' => if c = '.' then CodeUnit.spanDigits r' else ([], r)
    | [] => ([], [])
  if whole = [] ∧ fraction = [] then none
  else match r, Literal.exponent? r with
    | [], _ => some ⟨negative, whole, some fraction, none⟩
    | _, some (e, []) => some ⟨negative, whole, some fraction, some e⟩
    | _, _ => none

def real? (t : Text) : Option Binary64 := do
  let (negative, body) := signed (← joined? false (asciiDigits t).trimmed)
  let word := lowered body
  if word = "inf" ∨ word = "infinity" then return .infinite negative
  else if word = "nan" then return .nan negative
  else return (← realLiteral? negative body).real

end Keystroke.Argument
