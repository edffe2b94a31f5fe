import Keystroke.Text.CodeUnit
import Keystroke.Binary64.Decimal

namespace Keystroke

structure Literal where
  negative : Bool
  whole : List Nat
  fraction : Option (List Nat) := none
  exponent : Option Int := none
deriving DecidableEq, Repr

namespace Literal

def isInteger (l : Literal) : Bool := l.fraction.isNone && l.exponent.isNone

def integerLength (l : Literal) : Nat := l.whole.length + if l.negative then 1 else 0

def integer (l : Literal) : Int :=
  let n : Int := Numeral.value 10 l.whole
  if l.negative then -n else n

def real (l : Literal) : Binary64 :=
  let fraction := l.fraction.getD []
  Binary64.ofDecimal l.negative (Numeral.value 10 (l.whole ++ fraction))
    (l.exponent.getD 0 - fraction.length)

variable {σ : Type} [CodeUnit σ]

open CodeUnit in
def exponent? : List σ → Option (Int × List σ)
  | [] => none
  | e :: r =>
    if is e 'e' || is e 'E' then
      let (negative, r) : Bool × List σ :=
        match r with
        | s :: r' => if is s '-' then (true, r') else if is s '+' then (false, r') else (false, r)
        | [] => (false, [])
      match spanDigits r with
      | ([], _) => none
      | (ds, r) =>
        let n : Int := Numeral.value 10 ds
        some (if negative then -n else n, r)
    else none

end Literal

end Keystroke
