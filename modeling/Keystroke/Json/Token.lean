import Keystroke.Numeral.Literal

namespace Keystroke.Json

open CodeUnit

variable {σ : Type} [CodeUnit σ]

/-- How many arrays and objects may lie in one another. The interpreter allows a thousand calls in
one another, one for each, and ten are in use around a reader. -/
def nestingLimit : Nat := 990

def isSpace (s : σ) : Bool := is s ' ' || is s '\t' || is s '\n' || is s '\r'

def skipSpace (r : List σ) : List σ := r.dropWhile isSpace

def minus (s : List σ) : Bool × List σ :=
  match s with
  | c :: r => if is c '-' then (true, r) else (false, s)
  | [] => (false, [])

def whole? (s : List σ) : Option (List Nat × List σ) :=
  match s with
  | c :: r =>
    if is c '0' then some ([0], r)
    else match spanDigits s with
      | ([], _) => none
      | (ds, r) => some (ds, r)
  | [] => none

def fraction (s : List σ) : Option (List Nat) × List σ :=
  match s with
  | c :: r =>
    if is c '.' then
      match spanDigits r with
      | ([], _) => (none, s)
      | (ds, r) => (some ds, r)
    else (none, s)
  | [] => (none, [])

def exponent (s : List σ) : Option Int × List σ :=
  match Literal.exponent? s with
  | some (e, r) => (some e, r)
  | none => (none, s)

def number? (s : List σ) : Option (Literal × List σ) := do
  let (negative, r) := minus s
  let (whole, r) ← whole? r
  let (fraction, r) := fraction r
  let (exponent, r) := exponent r
  return (⟨negative, whole, fraction, exponent⟩, r)

/-- Whether what follows a number could only have belonged to it: a digit after a leading zero, or
the mark of a fraction or an exponent that has no digits. -/
def isUnfinished (l : Literal) (r : List σ) : Bool :=
  match r with
  | [] => false
  | c :: _ =>
    (l.isInteger && (is c '.' || (l.whole == [0] && (digit? c).isSome))) ||
      (l.exponent.isNone && (is c 'e' || is c 'E'))

/-- What a string is made of: code units as they stand, and UTF-16 units behind an escape. -/
inductive Piece (σ : Type)
  | plain (s : σ)
  | escaped (unit : CodePoint)

def hexDigit? (s : σ) : Option Nat := (CodePoint.ofNat? (code s)).bind (CodePoint.digit? 16)

def hexUnit? (a b c d : σ) : Option CodePoint := do
  CodePoint.ofNat? (Numeral.value 16 [← hexDigit? a, ← hexDigit? b, ← hexDigit? c, ← hexDigit? d])

def escapes : List (Char × Char) :=
  [('"', '"'), ('\\', '\\'), ('/', '/'), ('b', '\x08'), ('f', '\x0c'), ('n', '\n'), ('r', '\r'),
    ('t', '\t')]

def letterEscape? (s : σ) : Option CodePoint :=
  (escapes.find? fun e => is s e.1).map fun e => .ofChar e.2

def pieces? : List σ → Option (List (Piece σ) × List σ)
  | [] => none
  | c :: r =>
    if is c '"' then some ([], r)
    else if is c '\\' then
      match r with
      | [] => none
      | e :: r =>
        if is e 'u' then
          match r with
          | h₁ :: h₂ :: h₃ :: h₄ :: r => do
            let unit ← hexUnit? h₁ h₂ h₃ h₄
            let (ps, r) ← pieces? r
            return (.escaped unit :: ps, r)
          | _ => none
        else do
          let unit ← letterEscape? e
          let (ps, r) ← pieces? r
          return (.escaped unit :: ps, r)
    else if code c < 0x20 then none
    else do
      let (ps, r) ← pieces? r
      return (.plain c :: ps, r)

def ofPair (high low : CodePoint) : CodePoint :=
  (CodePoint.ofNat? (0x10000 + (high.val - 0xD800) * 0x400 + (low.val - 0xDC00))).getD high

end Keystroke.Json
