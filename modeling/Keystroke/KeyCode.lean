import Keystroke.Numeral

namespace Keystroke

/-- The codes from `first` up to, but not including, `stop`. -/
structure CodeRange where
  first : Int
  stop : Int

namespace CodeRange

def contains (r : CodeRange) (code : Int) : Bool := r.first ≤ code && code < r.stop

def size (r : CodeRange) : Nat := (r.stop - r.first).toNat

def toList (r : CodeRange) : List Int := (List.range r.size).map fun (n : Nat) => r.first + n

end CodeRange

namespace KeyCode

def undefined : Int := 0

def cancel : Int := 0x03
def backSpace : Int := 0x08
def tab : Int := 0x09
def enter : Int := 0x0A
def delete : Int := 0x7F

/-- Letters and digits have the codes of their upper-case ASCII characters. -/
def letters : CodeRange := ⟨0x41, 0x5B⟩

def digits : CodeRange := ⟨0x30, 0x3A⟩

def numpadDigits : CodeRange := ⟨0x60, 0x6A⟩

def numpadOffset : Int := 0x60 - 0x30

inductive AlignmentError
  | shifted (digit : Nat)
  | sizesDiffer
  | tooLarge
deriving DecidableEq, Repr

def AlignmentError.message : AlignmentError → Text
  | .shifted d =>
    let digit := Numeral.natural 10 d
    "VK_NUMPAD" ++ digit ++ " is not at a fixed offset from VK_" ++ digit
  | .sizesDiffer => "numpad and top-row digit ranges differ in size"
  | .tooLarge => "Python int too large to convert to C ssize_t"

/-- Whether each digit of the number pad is `offset` after its top-row digit, and `range` has as
many codes as there are digits. A range of 2 ^ 63 codes or more has no size that can be compared. -/
def checkNumpad (offset : Int) (range : CodeRange) : Except AlignmentError Unit :=
  match (List.range 10).find? fun (d : Nat) => 0x60 + (d : Int) - offset != 0x30 + (d : Int) with
  | some d => .error (.shifted d)
  | none =>
    if 2 ^ 63 ≤ range.size then .error .tooLarge
    else if range.size = digits.size then .ok () else .error .sizesDiffer

end KeyCode

end Keystroke
