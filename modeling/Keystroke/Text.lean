namespace Keystroke

/-- A Unicode code point, surrogates included. -/
structure CodePoint where
  val : Nat
  val_lt : val < 0x110000
deriving DecidableEq, Repr

/-- Lone surrogates are allowed: a keyboard hook may deliver one half of a surrogate pair as the character of
an event, and such a half has to survive every step up to the point where bytes are written. -/
abbrev Text := List CodePoint

abbrev Bytes := List UInt8

namespace CodePoint

def ofNat? (n : Nat) : Option CodePoint := if h : n < 0x110000 then some ⟨n, h⟩ else none

def ofChar (c : Char) : CodePoint := ⟨c.toNat, by
  have h := c.valid
  have e : c.toNat = c.val.toNat := rfl
  rw [e]
  rcases h with h | h <;> omega⟩

instance : Coe Char CodePoint := ⟨ofChar⟩

instance : Inhabited CodePoint := ⟨⟨0, by decide⟩⟩

def isHighSurrogate (c : CodePoint) : Bool := 0xD800 ≤ c.val && c.val ≤ 0xDBFF

def isLowSurrogate (c : CodePoint) : Bool := 0xDC00 ≤ c.val && c.val ≤ 0xDFFF

def isSurrogate (c : CodePoint) : Bool := 0xD800 ≤ c.val && c.val ≤ 0xDFFF

def isIn (ranges : List (Nat × Nat)) (c : CodePoint) : Bool :=
  ranges.any fun (first, last) => first ≤ c.val && c.val ≤ last

@[ext] theorem ext {a b : CodePoint} (h : a.val = b.val) : a = b := by
  cases a; cases b; simp_all

theorem ofNat?_val (c : CodePoint) : ofNat? c.val = some c := by simp [ofNat?, c.val_lt]

theorem val_of_ofNat? {n : Nat} {c : CodePoint} (h : ofNat? n = some c) : c.val = n := by
  unfold ofNat? at h
  split at h
  · cases h; rfl
  · cases h

end CodePoint

namespace Text

def ofString (s : String) : Text := s.toList.map CodePoint.ofChar

instance : Coe String Text := ⟨ofString⟩

/-- The text as a string, in which a surrogate becomes U+FFFD. -/
def asString (t : Text) : String :=
  String.ofList (t.map fun c => if c.isSurrogate then '\ufffd' else Char.ofNat c.val)

def joined (separator : Text) : List Text → Text
  | [] => []
  | [part] => part
  | part :: parts => part ++ separator ++ joined separator parts

def startsWith (t start : Text) : Bool := start.isPrefixOf t

def cutAt? (mark : CodePoint) : Text → Option (Text × Text)
  | [] => none
  | c :: t => if c = mark then some ([], t) else (cutAt? mark t).map fun (a, b) => (c :: a, b)

def splitAt (mark : CodePoint) : Text → List Text
  | [] => [[]]
  | c :: t =>
    if c = mark then [] :: splitAt mark t
    else match splitAt mark t with
      | [] => [[c]]
      | piece :: pieces => (c :: piece) :: pieces

end Text

end Keystroke
