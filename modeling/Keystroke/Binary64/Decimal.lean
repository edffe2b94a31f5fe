import Keystroke.Binary64
import Keystroke.Numeral

namespace Keystroke.Binary64

/-- The number nearest to `coefficient * 10 ^ exponent`. Beyond 400 places on either side of the
point nothing but infinity or zero is near, and no power has to be computed. -/
def ofDecimal (negative : Bool) (coefficient : Nat) (exponent : Int) : Binary64 :=
  let places := (Numeral.digits 10 coefficient).length + exponent
  if coefficient = 0 ∨ places < -400 then ofRank negative 0
  else if 400 < places then .infinite negative
  else
    ofRank negative (rankOf (coefficient * 10 ^ exponent.toNat) (10 ^ (-exponent).toNat))

structure Decimal where
  coefficient : Nat
  exponent : Int
deriving DecidableEq, Repr

/-- The greatest `e` with `10 ^ e ≤ p / q`, for a positive `p`. The logarithm of two is close enough
to be at most one off. -/
def floorLog10 (p q : Nat) : Int :=
  let guess := floorLog2 p q * 30103 / 100000
  let reaches (e : Int) : Bool := q * 10 ^ e.toNat ≤ p * 10 ^ (-e).toNat
  if reaches (guess + 1) then guess + 1 else if reaches guess then guess else guess - 1

/-- The multiple of `10 ^ k` nearest to the magnitude of a rank, among those of its two neighbours
that read back as this rank. The interval that reads back ends half way to the next ranks, and the
ends belong to it for an even mantissa; a power of two has its lower neighbour at half the distance.
-/
def onGrid? (rank : Nat) (k : Int) : Option Decimal :=
  let m := mantissa rank
  let up := 10 ^ (-k).toNat
  let v := 4 * units rank * up
  let ulp := 2 ^ scale rank * up
  let unit := 4 * 2 ^ 1074 * 10 ^ k.toNat
  let below := if m = 2 ^ 52 ∧ 2 ^ 53 ≤ rank then ulp else 2 * ulp
  let above := 2 * ulp
  let low := v / unit
  let near (gap reach : Nat) : Bool := gap < reach || (gap == reach && m % 2 == 0)
  let lowGap := v - low * unit
  let highGap := (low + 1) * unit - v
  let lowHit := near lowGap below
  let highHit := near highGap above
  if lowHit ∧ highHit then
    if lowGap < highGap ∨ (lowGap = highGap ∧ low % 2 = 0) then some ⟨low, k⟩ else some ⟨low + 1, k⟩
  else if lowHit then some ⟨low, k⟩
  else if highHit then some ⟨low + 1, k⟩
  else none

/-- The shortest decimal that reads back as this rank, of the shortest the nearest. Seventeen digits
are always enough. -/
def shortest (rank : Nat) : Decimal :=
  let top := floorLog10 (units rank) (2 ^ 1074)
  ((List.range 17).findSome? fun (n : Nat) => onGrid? rank (top - n)).getD ⟨0, 0⟩

structure Layout where
  positionalFrom : Int
  positionalTo : Int
  exponentDigits : Nat

/-- Numbers from 0.0001 up to 10000000000000000 are written positionally, and always with a point;
others have one digit before the point and a signed exponent of two or three digits. -/
def plainLayout : Layout := ⟨-4, 15, 2⟩

def Layout.magnitude (layout : Layout) (d : Decimal) : Text :=
  let all := Numeral.digits 10 d.coefficient
  let point := all.length + d.exponent
  let ds := ((all.reverse.dropWhile (· == 0)).reverse).map CodePoint.ofDigit
  let zeros (n : Nat) : Text := List.replicate n (CodePoint.ofChar '0')
  if layout.positionalFrom ≤ point - 1 ∧ point - 1 ≤ layout.positionalTo then
    if point ≤ 0 then "0." ++ zeros (-point).toNat ++ ds
    else
      let n := point.toNat
      if ds.length ≤ n then ds ++ zeros (n - ds.length) ++ ".0" else ds.take n ++ "." ++ ds.drop n
  else
    let fraction := if ds.length ≤ 1 then ds else ds.take 1 ++ "." ++ ds.drop 1
    let e := point - 1
    fraction ++ (if e < 0 then "e-" else "e+") ++
      Numeral.zeroPadded layout.exponentDigits (Numeral.natural 10 e.natAbs)

def text (x : Binary64) : Text :=
  match x with
  | .nan _ => "nan"
  | .infinite negative => if negative then "-inf" else "inf"
  | .finite negative rank =>
    let magnitude : Text :=
      if rank.val = 0 then "0.0" else plainLayout.magnitude (shortest rank)
    if negative then "-" ++ magnitude else magnitude

end Keystroke.Binary64
