import Keystroke.Text

namespace Keystroke

-- Powers are those of core, also next to other instances of `Pow`.
@[default_instance 20000]
instance intPow : Pow Int Nat := instPowNat

@[default_instance 20001]
instance natPow : Pow Nat Nat := instPowNat

def CodePoint.ofDigit (d : Nat) : CodePoint :=
  if d < 10 then (CodePoint.ofNat? (0x30 + d)).getD default
  else (CodePoint.ofNat? (0x61 + (d - 10))).getD default

def CodePoint.digit? (base : Nat) (c : CodePoint) : Option Nat :=
  let n := c.val
  let d :=
    if 0x30 ≤ n ∧ n ≤ 0x39 then n - 0x30
    else if 0x41 ≤ n ∧ n ≤ 0x5A then n - 0x41 + 10
    else if 0x61 ≤ n ∧ n ≤ 0x7A then n - 0x61 + 10
    else base
  if d < base then some d else none

namespace Numeral

def digitsOnto (base : Nat) : Nat → Nat → List Nat → List Nat
  | 0, _, tail => tail
  | fuel + 1, n, tail =>
    if n < base then n :: tail else digitsOnto base fuel (n / base) (n % base :: tail)

/-- The digits of a number, most significant first. In no base from 2 on does it have more digits
than bits, which bounds the recursion. -/
def digits (base n : Nat) : List Nat := digitsOnto base (n.log2 + 1) n []

def value (base : Nat) (ds : List Nat) : Nat := ds.foldl (fun n d => n * base + d) 0

theorem foldl_eq (base start : Nat) (ds : List Nat) :
    ds.foldl (fun n d => n * base + d) start = start * base ^ ds.length + value base ds := by
  unfold value
  induction ds generalizing start with
  | nil => simp
  | cons d ds ih =>
    rw [List.foldl_cons, List.foldl_cons, ih (start * base + d), ih (0 * base + d),
      List.length_cons, Nat.pow_succ']
    simp [Nat.add_mul, Nat.mul_assoc, Nat.add_assoc]

theorem value_cons (base d : Nat) (ds : List Nat) :
    value base (d :: ds) = d * base ^ ds.length + value base ds := by
  simpa [value] using foldl_eq base d ds

theorem value_digitsOnto {base fuel n : Nat} (h : n < base ^ fuel) (tail : List Nat) :
    value base (digitsOnto base fuel n tail) = n * base ^ tail.length + value base tail := by
  induction fuel generalizing n tail with
  | zero => simp at h; simp [digitsOnto, h]
  | succ fuel ih =>
    rw [digitsOnto]
    split
    · exact value_cons ..
    · rw [ih (Nat.div_lt_of_lt_mul (by rwa [Nat.pow_succ'] at h)), value_cons, List.length_cons,
        Nat.pow_succ', ← Nat.mul_assoc, ← Nat.add_assoc, ← Nat.add_mul, Nat.mul_comm (n / base),
        Nat.div_add_mod]

theorem value_digits {base : Nat} (h : 2 ≤ base) (n : Nat) : value base (digits base n) = n := by
  have hn : n < base ^ (n.log2 + 1) :=
    Nat.lt_of_lt_of_le Nat.lt_log2_self (Nat.pow_le_pow_left h _)
  simpa [value, digits] using value_digitsOnto hn []

theorem lt_of_mem_digitsOnto {base fuel n d : Nat} (h : 0 < base) {tail : List Nat}
    (ht : ∀ d ∈ tail, d < base) (hd : d ∈ digitsOnto base fuel n tail) : d < base := by
  induction fuel generalizing n tail with
  | zero => exact ht d hd
  | succ fuel ih =>
    rw [digitsOnto] at hd
    split at hd <;> rename_i hn
    · rcases List.mem_cons.1 hd with rfl | hd
      · exact hn
      · exact ht d hd
    · refine ih (fun e he => ?_) hd
      rcases List.mem_cons.1 he with rfl | he
      · exact Nat.mod_lt n h
      · exact ht e he

theorem lt_of_mem_digits {base n d : Nat} (h : 0 < base) (hd : d ∈ digits base n) : d < base :=
  lt_of_mem_digitsOnto h (by simp) hd

def natural (base n : Nat) : Text := (digits base n).map CodePoint.ofDigit

def sign (z : Int) : Text := if z < 0 then "-" else []

def decimal (z : Int) : Text := sign z ++ natural 10 z.natAbs

/-- The most digits of a decimal numeral that is made of an integer or into one. -/
def digitLimit : Nat := 4300

def overLimit (detail : Text) : Text :=
  "Exceeds the limit (" ++ decimal digitLimit ++ " digits) for integer string conversion" ++ detail ++
    "; use sys.set_int_max_str_digits() to increase the limit"

structure TooManyDigits
deriving DecidableEq, Repr

def TooManyDigits.message (_ : TooManyDigits) : Text := overLimit []

def Fits (z : Int) : Prop := (digits 10 z.natAbs).length ≤ digitLimit

instance (z : Int) : Decidable (Fits z) := inferInstanceAs (Decidable (_ ≤ _))

def written (z : Int) : Except TooManyDigits Text := if Fits z then .ok (decimal z) else .error ⟨⟩

/-- A message around an integer as it is written. What cannot be written is complained of instead. -/
def messageAround (shown : Except TooManyDigits Text) (message : Text → Text) : Text :=
  match shown with
  | .ok t => message t
  | .error e => e.message

def hex (z : Int) : Text := sign z ++ natural 16 z.natAbs

/-- Hexadecimal after its mark, the sign in front: `0x41`, `-0x5`. -/
def markedHex (z : Int) : Text := sign z ++ "0x" ++ natural 16 z.natAbs

def zeroPadded (width : Nat) (t : Text) : Text :=
  List.replicate (width - t.length) (CodePoint.ofChar '0') ++ t

/-- Marked hexadecimal, filled with zeros to six places. The sign and the mark count among them. -/
def hexColumn (z : Int) : Text :=
  let front := sign z ++ "0x"
  front ++ zeroPadded (6 - front.length) (natural 16 z.natAbs)

end Numeral

end Keystroke
