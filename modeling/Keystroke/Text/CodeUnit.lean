import Keystroke.Text

namespace Keystroke

class CodeUnit (σ : Type) where
  code : σ → Nat

instance : CodeUnit UInt8 := ⟨UInt8.toNat⟩

instance : CodeUnit CodePoint := ⟨CodePoint.val⟩

namespace CodeUnit

variable {σ : Type} [CodeUnit σ]

def is (s : σ) (c : Char) : Bool := code s == c.toNat

def digit? (s : σ) : Option Nat :=
  if 0x30 ≤ code s ∧ code s ≤ 0x39 then some (code s - 0x30) else none

def spanDigits : List σ → List Nat × List σ
  | [] => ([], [])
  | s :: r =>
    match digit? s with
    | some d => (d :: (spanDigits r).1, (spanDigits r).2)
    | none => ([], s :: r)

def after? : List Char → List σ → Option (List σ)
  | [], r => some r
  | _ :: _, [] => none
  | c :: w, s :: r => if is s c then after? w r else none

end CodeUnit

end Keystroke
