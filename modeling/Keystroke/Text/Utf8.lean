import Keystroke.Numeral

namespace Keystroke

/-- The bytes that the bit pattern of UTF-8 gives, surrogates not excepted. -/
def CodePoint.utf8 (c : CodePoint) : Bytes :=
  let n := c.val
  let tail (k : Nat) : UInt8 := UInt8.ofNat (0x80 + n / 64 ^ k % 64)
  if n < 0x80 then [UInt8.ofNat n]
  else if n < 0x800 then [UInt8.ofNat (0xC0 + n / 64), tail 0]
  else if n < 0x10000 then [UInt8.ofNat (0xE0 + n / 4096), tail 1, tail 0]
  else [UInt8.ofNat (0xF0 + n / 262144), tail 2, tail 1, tail 0]

namespace Utf8

def encode? (t : Text) : Option Bytes :=
  if t.any CodePoint.isSurrogate then none else some (t.flatMap CodePoint.utf8)

/-- A sequence that is not complete: how many bytes follow the next one, the least code point that
needs a sequence of this length, and the bits so far. -/
structure Pending where
  more : Nat
  least : Nat
  bits : Nat

def tailBits? (b : UInt8) : Option Nat :=
  if 0x80 ≤ b.toNat ∧ b.toNat < 0xC0 then some (b.toNat - 0x80) else none

def scalar? (least n : Nat) : Option CodePoint :=
  match CodePoint.ofNat? n with
  | some c => if c.isSurrogate ∨ n < least then none else some c
  | none => none

def opened? (b : UInt8) : Option Pending :=
  let n := b.toNat
  if n < 0xC0 then none
  else if n < 0xE0 then some ⟨0, 0x80, n - 0xC0⟩
  else if n < 0xF0 then some ⟨1, 0x800, n - 0xE0⟩
  else if n < 0xF8 then some ⟨2, 0x10000, n - 0xF0⟩
  else none

def decodeInside? : Option Pending → Bytes → Option Text
  | none, [] => some []
  | some _, [] => none
  | none, b :: r =>
    if b.toNat < 0x80 then do
      let c ← scalar? 0 b.toNat
      let t ← decodeInside? none r
      return c :: t
    else do
      let p ← opened? b
      decodeInside? (some p) r
  | some ⟨more, least, bits⟩, b :: r => do
    let x ← tailBits? b
    match more with
    | more + 1 => decodeInside? (some ⟨more, least, bits * 64 + x⟩) r
    | 0 =>
      let c ← scalar? least (bits * 64 + x)
      let t ← decodeInside? none r
      return c :: t

/-- Only shortest forms are read, and no surrogates. -/
def decode? (b : Bytes) : Option Text := decodeInside? none b

theorem tailBits?_ofNat {x : Nat} (h : x < 64) : tailBits? (UInt8.ofNat (0x80 + x)) = some x := by
  rw [tailBits?, UInt8.toNat_ofNat_of_lt' (show 0x80 + x < 256 by omega), if_pos (by omega),
    Nat.add_sub_cancel_left]

theorem scalar?_val {c : CodePoint} {least : Nat} (h : c.isSurrogate = false) (hl : least ≤ c.val) :
    scalar? least c.val = some c := by
  simp [scalar?, CodePoint.ofNat?_val, h, Nat.not_lt.2 hl]

theorem decodeInside?_tail {b : UInt8} {x : Nat} (hb : tailBits? b = some x)
    (more least bits : Nat) (r : Bytes) :
    decodeInside? (some ⟨more + 1, least, bits⟩) (b :: r) =
      decodeInside? (some ⟨more, least, bits * 64 + x⟩) r := by
  simp [decodeInside?, hb]

theorem decodeInside?_last {b : UInt8} {x : Nat} (hb : tailBits? b = some x) {c : CodePoint}
    (hc : c.isSurrogate = false) {least bits : Nat} (hl : least ≤ c.val)
    (hx : bits * 64 + x = c.val) (r : Bytes) :
    decodeInside? (some ⟨0, least, bits⟩) (b :: r) = (decodeInside? none r).map (c :: ·) := by
  simp only [decodeInside?, hb, hx, scalar?_val hc hl, Option.bind_eq_bind, Option.bind_some]
  cases decodeInside? none r <;> rfl

theorem decodeInside?_utf8 {c : CodePoint} (h : c.isSurrogate = false) (r : Bytes) :
    decodeInside? none (c.utf8 ++ r) = (decodeInside? none r).map (c :: ·) := by
  have hc := c.val_lt
  unfold CodePoint.utf8
  dsimp only
  split
  · rename_i hn
    simp only [List.cons_append, List.nil_append, decodeInside?,
      UInt8.toNat_ofNat_of_lt' (show c.val < 256 by omega),
      hn, if_true, scalar?_val h (Nat.zero_le _)]
    cases decodeInside? none r <;> rfl
  split
  · have e := UInt8.toNat_ofNat_of_lt' (show 0xC0 + c.val / 64 < 256 by omega)
    simp only [List.cons_append, List.nil_append, decodeInside?, e]
    rw [if_neg (by omega)]
    simp only [opened?, e]
    rw [if_neg (by omega), if_pos (by omega)]
    refine decodeInside?_last (tailBits?_ofNat ?_) h ?_ ?_ r <;> simp <;> omega
  split
  · have e := UInt8.toNat_ofNat_of_lt' (show 0xE0 + c.val / 4096 < 256 by omega)
    simp only [List.cons_append, List.nil_append, decodeInside?, e]
    rw [if_neg (by omega)]
    simp only [opened?, e]
    rw [if_neg (by omega), if_neg (by omega), if_pos (by omega)]
    refine (decodeInside?_tail (tailBits?_ofNat ?_) ..).trans
      (decodeInside?_last (tailBits?_ofNat ?_) h ?_ ?_ r) <;> simp <;> omega
  · have e := UInt8.toNat_ofNat_of_lt' (show 0xF0 + c.val / 262144 < 256 by omega)
    simp only [List.cons_append, List.nil_append, decodeInside?, e]
    rw [if_neg (by omega)]
    simp only [opened?, e]
    rw [if_neg (by omega), if_neg (by omega), if_neg (by omega), if_pos (by omega)]
    refine (decodeInside?_tail (tailBits?_ofNat ?_) ..).trans
      ((decodeInside?_tail (tailBits?_ofNat ?_) ..).trans
        (decodeInside?_last (tailBits?_ofNat ?_) h ?_ ?_ r)) <;> simp <;> omega

theorem decode?_of_encode? {t : Text} {b : Bytes} (h : encode? t = some b) :
    decode? b = some t := by
  unfold encode? at h
  split at h
  · cases h
  · rename_i ht
    cases h
    unfold decode?
    induction t with
    | nil => rfl
    | cons c t ih =>
      simp only [List.any_cons, Bool.or_eq_true, not_or, Bool.not_eq_true] at ht
      rw [List.flatMap_cons, decodeInside?_utf8 ht.1, ih (by simp [ht.2])]
      rfl

end Utf8

end Keystroke
