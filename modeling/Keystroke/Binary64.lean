import Keystroke.Numeral

namespace Keystroke

/-- The finite magnitudes have ranks in order of size, from 0 for zero; a rank is also the bit
pattern of its magnitude. A NaN has a sign and nothing more. -/
inductive Binary64
  | nan (negative : Bool)
  | infinite (negative : Bool)
  | finite (negative : Bool) (rank : Fin (2047 * 2 ^ 52))
deriving DecidableEq, Repr

namespace Binary64

/-- A magnitude of rank `r` is `mantissa r * 2 ^ scale r` units of `2 ^ (-1074)`. -/
def mantissa (rank : Nat) : Nat := if rank < 2 ^ 52 then rank else 2 ^ 52 + rank % 2 ^ 52

def scale (rank : Nat) : Nat := rank / 2 ^ 52 - 1

def units (rank : Nat) : Nat := mantissa rank * 2 ^ scale rank

/-- The integer nearest to `p / q`, of two the even one. -/
def nearest (p q : Nat) : Nat :=
  let n := p / q
  let rest := 2 * (p % q)
  if rest < q then n else if q < rest then n + 1 else n + n % 2

def floorLog2 (p q : Nat) : Int :=
  let e : Int := p.log2 - q.log2
  if q * 2 ^ e.toNat ≤ p * 2 ^ (-e).toNat then e else e - 1

def rankOf (p q : Nat) : Nat :=
  if p = 0 then 0
  else
    let s := (floorLog2 p q + 1022).toNat
    s * 2 ^ 52 + nearest (p * 2 ^ 1074) (q * 2 ^ s)

def ofRank? (negative : Bool) (rank : Nat) : Option Binary64 :=
  if h : rank < 2047 * 2 ^ 52 then some (.finite negative ⟨rank, h⟩) else none

def ofRank (negative : Bool) (rank : Nat) : Binary64 :=
  (ofRank? negative rank).getD (.infinite negative)

def ofQuotient? (negative : Bool) (p q : Nat) : Option Binary64 := ofRank? negative (rankOf p q)

def ofInt? (z : Int) : Option Binary64 := ofQuotient? (z < 0) z.natAbs 1

def zero : Binary64 := .finite false ⟨0, by decide⟩

def one : Binary64 := .finite false ⟨1023 * 2 ^ 52, by decide⟩

def isNaN : Binary64 → Bool
  | .nan _ => true
  | .infinite _ | .finite _ _ => false

/-- An operand that is a NaN is the result, the first of two. -/
def div : Binary64 → Binary64 → Binary64
  | .nan a, _ => .nan a
  | _, .nan b => .nan b
  | .infinite _, .infinite _ => .nan false
  | .infinite a, .finite b _ => .infinite (a ^^ b)
  | .finite a _, .infinite b => .finite (a ^^ b) ⟨0, by decide⟩
  | .finite a x, .finite b y =>
    if y.val = 0 then if x.val = 0 then .nan false else .infinite (a ^^ b)
    else ofRank (a ^^ b) (rankOf (units x) (units y))

instance : Div Binary64 := ⟨div⟩

def nonpositive : Binary64 → Bool
  | .nan _ => false
  | .infinite negative => negative
  | .finite negative rank => negative || rank.val == 0

def toBits : Binary64 → UInt64
  | .nan negative => .ofNat ((if negative then 2 ^ 63 else 0) + 2047 * 2 ^ 52 + 2 ^ 51)
  | .infinite negative => .ofNat ((if negative then 2 ^ 63 else 0) + 2047 * 2 ^ 52)
  | .finite negative rank => .ofNat ((if negative then 2 ^ 63 else 0) + rank.val)

def ofBits (bits : UInt64) : Binary64 :=
  let n := bits.toNat
  let negative := decide (2 ^ 63 ≤ n)
  let magnitude := n % 2 ^ 63
  if h : magnitude < 2047 * 2 ^ 52 then .finite negative ⟨magnitude, h⟩
  else if magnitude = 2047 * 2 ^ 52 then .infinite negative
  else .nan negative

end Binary64

end Keystroke
