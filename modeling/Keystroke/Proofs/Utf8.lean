import Keystroke.Text.Utf8

namespace Keystroke

def Text.NoSurrogate (t : Text) : Prop := ∀ c ∈ t, c.isSurrogate = false

instance (t : Text) : Decidable t.NoSurrogate := inferInstanceAs (Decidable (∀ c ∈ t, _))

theorem Text.noSurrogate_append {s t : Text} :
    Text.NoSurrogate (s ++ t) ↔ s.NoSurrogate ∧ t.NoSurrogate := List.forall_mem_append

namespace CodePoint

theorem isSurrogate_of_lt {c : CodePoint} (h : c.val < 0xD800) : c.isSurrogate = false := by
  simp only [isSurrogate, Bool.and_eq_false_iff, decide_eq_false_iff_not]
  omega

theorem utf8_ascii {c : CodePoint} (h : c.val < 0x80) : c.utf8 = [UInt8.ofNat c.val] := by
  simp [utf8, h]

theorem le_of_mem_utf8 {c : CodePoint} (h : 0x80 ≤ c.val) {b : UInt8} (hb : b ∈ c.utf8) :
    0x80 ≤ b.toNat := by
  have hc := c.val_lt
  have large (n : Nat) (hn : n < 256) (hl : 0x80 ≤ n) : 0x80 ≤ (UInt8.ofNat n).toNat := by
    rwa [UInt8.toNat_ofNat_of_lt' hn]
  unfold utf8 at hb
  dsimp only at hb
  rw [if_neg (by omega)] at hb
  split at hb
  · simp only [List.mem_cons, List.not_mem_nil, or_false] at hb
    rcases hb with rfl | rfl <;> apply large <;> omega
  split at hb
  · simp only [List.mem_cons, List.not_mem_nil, or_false] at hb
    rcases hb with rfl | rfl | rfl <;> apply large <;> omega
  · simp only [List.mem_cons, List.not_mem_nil, or_false] at hb
    rcases hb with rfl | rfl | rfl | rfl <;> apply large <;> omega

theorem utf8_ofChar (c : Char) : (ofChar c).utf8 = String.utf8EncodeChar c := by
  have hc : c.val.toNat < 0x110000 := (ofChar c).val_lt
  have hv : (ofChar c).val = c.val.toNat := rfl
  simp only [utf8, String.utf8EncodeChar, hv, Nat.add_comm 0xC0, Nat.add_comm 0x80, Nat.add_comm 0xE0,
    Nat.add_comm 0xF0, Nat.pow_zero, Nat.div_one, Nat.reducePow]
  generalize c.val.toNat = n at hc
  by_cases h₁ : n < 0x80
  · rw [if_pos h₁, if_pos (Nat.le_of_lt_succ h₁)]
  rw [if_neg h₁, if_neg (show ¬ n ≤ 0x7F by omega)]
  by_cases h₂ : n < 0x800
  · rw [if_pos h₂, if_pos (Nat.le_of_lt_succ h₂), Nat.mod_eq_of_lt (show n / 64 < 32 by omega)]
  rw [if_neg h₂, if_neg (show ¬ n ≤ 0x7FF by omega)]
  by_cases h₃ : n < 0x10000
  · rw [if_pos h₃, if_pos (Nat.le_of_lt_succ h₃), Nat.mod_eq_of_lt (show n / 4096 < 16 by omega)]
  · rw [if_neg h₃, if_neg (show ¬ n ≤ 0xFFFF by omega), Nat.mod_eq_of_lt (show n / 262144 < 8 by omega)]

theorem exists_ofChar {u : CodePoint} (h : u.isSurrogate = false) : ∃ c : Char, u = ofChar c := by
  have hlt := u.val_lt
  simp only [isSurrogate, Bool.and_eq_false_iff, decide_eq_false_iff_not] at h
  have hvalid : Nat.isValidChar u.val := by
    rw [Nat.isValidChar]
    omega
  exact ⟨Char.ofNatAux u.val hvalid, CodePoint.ext rfl⟩

theorem isSurrogate_ofChar (c : Char) : (ofChar c).isSurrogate = false := by
  have hv : (ofChar c).val.isValidChar := c.valid
  simp only [isSurrogate, Bool.and_eq_false_iff, decide_eq_false_iff_not]
  rcases hv with hv | hv <;> omega

theorem isHighSurrogate_iff {c : CodePoint} :
    c.isHighSurrogate = true ↔ 0xD800 ≤ c.val ∧ c.val < 0xDC00 := by
  simp only [isHighSurrogate, Bool.and_eq_true, decide_eq_true_eq]
  omega

theorem isLowSurrogate_iff {c : CodePoint} :
    c.isLowSurrogate = true ↔ 0xDC00 ≤ c.val ∧ c.val < 0xE000 := by
  simp only [isLowSurrogate, Bool.and_eq_true, decide_eq_true_eq]
  omega

theorem isSurrogate_iff {c : CodePoint} :
    c.isSurrogate = true ↔ c.isHighSurrogate = true ∨ c.isLowSurrogate = true := by
  rw [isHighSurrogate_iff, isLowSurrogate_iff]
  simp only [isSurrogate, Bool.and_eq_true, decide_eq_true_eq]
  omega

end CodePoint

theorem Text.noSurrogate_ofString (s : String) : Text.NoSurrogate s := by
  intro u hu
  obtain ⟨c, -, rfl⟩ := List.mem_map.1 hu
  exact CodePoint.isSurrogate_ofChar c

namespace Utf8

def bytes (t : Text) : Bytes := t.flatMap CodePoint.utf8

@[simp] theorem bytes_nil : bytes [] = [] := rfl

@[simp] theorem bytes_cons (c : CodePoint) (t : Text) : bytes (c :: t) = c.utf8 ++ bytes t := rfl

@[simp] theorem bytes_append (s t : Text) : bytes (s ++ t) = bytes s ++ bytes t :=
  List.flatMap_append

theorem encode?_bytes {t : Text} (h : t.NoSurrogate) : encode? t = some (bytes t) := by
  rw [encode?, if_neg]
  · rfl
  · simpa [Text.NoSurrogate] using h

theorem bytes_ofString (s : String) : bytes s = s.toList.flatMap String.utf8EncodeChar := by
  rw [bytes, Text.ofString, List.flatMap_map]
  simp only [CodePoint.utf8_ofChar]

theorem exists_string {t : Text} (h : t.NoSurrogate) :
    ∃ s : String, t = s ∧ bytes t = s.toList.flatMap String.utf8EncodeChar := by
  obtain ⟨cs, rfl⟩ : ∃ cs : List Char, t = cs.map .ofChar := by
    induction t with
    | nil => exact ⟨[], rfl⟩
    | cons u t ih =>
        obtain ⟨hu, ht⟩ := List.forall_mem_cons.1 h
        obtain ⟨c, rfl⟩ := CodePoint.exists_ofChar hu
        obtain ⟨cs, rfl⟩ := ih ht
        exact ⟨c :: cs, rfl⟩
  have hs : cs.map .ofChar = Text.ofString (.ofList cs) := by
    rw [Text.ofString, String.toList_ofList]
  exact ⟨.ofList cs, hs, by rw [hs, bytes_ofString]⟩

theorem encode?_eq_none {t : Text} (h : ¬ t.NoSurrogate) : encode? t = none := by
  rw [encode?, if_pos]
  simpa [Text.NoSurrogate] using h

theorem exists_of_mem_bytes {t : Text} {b : UInt8} (hb : b ∈ bytes t) (h : b.toNat < 0x80) :
    ∃ c ∈ t, c.val = b.toNat := by
  obtain ⟨c, hc, hbc⟩ := List.mem_flatMap.1 hb
  refine ⟨c, hc, ?_⟩
  by_cases hv : c.val < 0x80
  · rw [CodePoint.utf8_ascii hv, List.mem_singleton] at hbc
    rw [hbc, UInt8.toNat_ofNat_of_lt' (show c.val < 256 by omega)]
  · exact absurd (CodePoint.le_of_mem_utf8 (Nat.not_lt.1 hv) hbc) (by omega)

theorem scalar?_eq_some {least n : Nat} {c : CodePoint} (h : scalar? least n = some c) :
    c.isSurrogate = false := by
  unfold scalar? at h
  split at h
  · split at h
    · cases h
    · rename_i hs
      cases h
      simpa using fun he => hs (.inl he)
  · cases h

theorem noSurrogate_of_decodeInside? {p : Option Pending} {b : Bytes} {t : Text}
    (h : decodeInside? p b = some t) : t.NoSurrogate := by
  fun_induction decodeInside? p b generalizing t with
  | case1 => cases h; simp [Text.NoSurrogate]
  | case2 => cases h
  | case3 b r hb ih =>
      simp only [Option.bind_eq_bind, Option.bind_eq_some_iff] at h
      obtain ⟨c, hc, u, hu, h⟩ := h
      cases h
      exact List.forall_mem_cons.2 ⟨scalar?_eq_some hc, ih hu⟩
  | case4 b r hb ih =>
      obtain ⟨q, _, h⟩ := Option.bind_eq_some_iff.1 h
      exact ih q h
  | case5 more least bits b r ihMore ihLast =>
      obtain ⟨x, _, h⟩ := Option.bind_eq_some_iff.1 h
      cases more with
      | succ more => exact ihMore x more h
      | zero =>
          simp only [Option.bind_eq_bind, Option.bind_eq_some_iff] at h
          obtain ⟨c, hc, u, hu, h⟩ := h
          cases h
          exact List.forall_mem_cons.2 ⟨scalar?_eq_some hc, ihLast hu⟩

def IsTail (x : UInt8) : Prop := 0x80 ≤ x.toNat ∧ x.toNat < 0xC0

def bitsWith (bits : Nat) (s : Bytes) : Nat := s.foldl (fun n x => n * 64 + (x.toNat - 0x80)) bits

theorem tailBits?_eq_some {x : UInt8} {n : Nat} (h : tailBits? x = some n) :
    IsTail x ∧ n = x.toNat - 0x80 := by
  unfold tailBits? at h
  split at h
  · exact ⟨‹_›, (Option.some.inj h).symm⟩
  · cases h

theorem scalar?_bounds {least n : Nat} {c : CodePoint} (h : scalar? least n = some c) :
    c.val = n ∧ least ≤ n := by
  unfold scalar? at h
  split at h
  · rename_i d hd
    split at h
    · cases h
    · rename_i hs
      cases h
      exact ⟨CodePoint.val_of_ofNat? hd, Nat.not_lt.1 fun hl => hs (.inr hl)⟩
  · cases h

theorem opened?_cases {b : UInt8} {p : Pending} (h : opened? b = some p) :
    0xC0 ≤ b.toNat ∧ b.toNat < 0xE0 ∧ p = ⟨0, 0x80, b.toNat - 0xC0⟩ ∨
      0xE0 ≤ b.toNat ∧ b.toNat < 0xF0 ∧ p = ⟨1, 0x800, b.toNat - 0xE0⟩ ∨
      0xF0 ≤ b.toNat ∧ b.toNat < 0xF8 ∧ p = ⟨2, 0x10000, b.toNat - 0xF0⟩ := by
  unfold opened? at h
  dsimp only at h
  split at h
  · cases h
  split at h
  · exact .inl ⟨by omega, by omega, (Option.some.inj h).symm⟩
  split at h
  · exact .inr (.inl ⟨by omega, by omega, (Option.some.inj h).symm⟩)
  split at h
  · exact .inr (.inr ⟨by omega, by omega, (Option.some.inj h).symm⟩)
  · cases h

/-- A sequence that is read is the one of its code point: a longer one would be below the least. -/
theorem utf8_of_opened? {b : UInt8} {p : Pending} (hb : opened? b = some p) {s : Bytes}
    (hs : ∀ x ∈ s, IsTail x) (hlength : s.length = p.more + 1) {c : CodePoint}
    (hc : c.val = bitsWith p.bits s) (hl : p.least ≤ c.val) : c.utf8 = b :: s := by
  have eq {x : UInt8} {n : Nat} (h : n = x.toNat) : UInt8.ofNat n = x := by rw [h, UInt8.ofNat_toNat]
  unfold CodePoint.utf8
  dsimp only
  rcases opened?_cases hb with ⟨hle, hlt, hp⟩ | ⟨hle, hlt, hp⟩ | ⟨hle, hlt, hp⟩
  · rw [hp] at hlength hc hl
    obtain ⟨x, rfl⟩ := List.length_eq_one_iff.1 hlength
    have hx := hs x (by simp)
    simp only [bitsWith, List.foldl_cons, List.foldl_nil, IsTail] at hc hx hl
    have hlead : 0xC0 + c.val / 64 = b.toNat := by omega
    have htail : 0x80 + c.val / 64 ^ 0 % 64 = x.toNat := by simp; omega
    rw [if_neg (by omega), if_pos (by omega), eq hlead, eq htail]
  · rw [hp] at hlength hc hl
    obtain ⟨x, s, rfl⟩ := List.exists_cons_of_length_eq_add_one hlength
    obtain ⟨y, rfl⟩ := List.length_eq_one_iff.1 (Nat.succ.inj hlength)
    have hx := hs x (by simp)
    have hy := hs y (by simp)
    simp only [bitsWith, List.foldl_cons, List.foldl_nil, IsTail] at hc hx hy hl
    have hlead : 0xE0 + c.val / 4096 = b.toNat := by omega
    have htail₁ : 0x80 + c.val / 64 ^ 1 % 64 = x.toNat := by simp; omega
    have htail₀ : 0x80 + c.val / 64 ^ 0 % 64 = y.toNat := by simp; omega
    rw [if_neg (by omega), if_neg (by omega), if_pos (by omega), eq hlead, eq htail₁, eq htail₀]
  · rw [hp] at hlength hc hl
    obtain ⟨x, s, rfl⟩ := List.exists_cons_of_length_eq_add_one hlength
    have hlength := Nat.succ.inj hlength
    obtain ⟨y, s, rfl⟩ := List.exists_cons_of_length_eq_add_one hlength
    obtain ⟨z, rfl⟩ := List.length_eq_one_iff.1 (Nat.succ.inj hlength)
    have hx := hs x (by simp)
    have hy := hs y (by simp)
    have hz := hs z (by simp)
    simp only [bitsWith, List.foldl_cons, List.foldl_nil, IsTail] at hc hx hy hz hl
    have hlead : 0xF0 + c.val / 262144 = b.toNat := by omega
    have htail₂ : 0x80 + c.val / 64 ^ 2 % 64 = x.toNat := by simp; omega
    have htail₁ : 0x80 + c.val / 64 ^ 1 % 64 = y.toNat := by simp; omega
    have htail₀ : 0x80 + c.val / 64 ^ 0 % 64 = z.toNat := by simp; omega
    rw [if_neg (by omega), if_neg (by omega), if_neg (by omega), eq hlead, eq htail₂, eq htail₁,
      eq htail₀]

def ReadsAs (t : Text) (b : Bytes) : Option Pending → Prop
  | none => b = bytes t
  | some p => ∃ c u s, t = c :: u ∧ b = s ++ bytes u ∧ (∀ x ∈ s, IsTail x) ∧ s.length = p.more + 1 ∧
      c.val = bitsWith p.bits s ∧ p.least ≤ c.val

theorem readsAs_of_decodeInside? {p : Option Pending} {b : Bytes} {t : Text}
    (h : decodeInside? p b = some t) : ReadsAs t b p := by
  fun_induction decodeInside? p b generalizing t with
  | case1 => cases h; rfl
  | case2 => cases h
  | case3 b r hb ih =>
      simp only [Option.bind_eq_bind, Option.bind_eq_some_iff] at h
      obtain ⟨c, hc, u, hu, h⟩ := h
      cases h
      obtain ⟨hv, -⟩ := scalar?_bounds hc
      rw [ReadsAs, bytes_cons, CodePoint.utf8_ascii (by omega), hv, UInt8.ofNat_toNat, ih hu]
      rfl
  | case4 b r hb ih =>
      obtain ⟨q, hq, h⟩ := Option.bind_eq_some_iff.1 h
      obtain ⟨c, u, s, rfl, rfl, hs, hlength, hc, hl⟩ := ih q h
      rw [ReadsAs, bytes_cons, utf8_of_opened? hq hs hlength hc hl]
      rfl
  | case5 more least bits b r ihMore ihLast =>
      obtain ⟨x, hx, h⟩ := Option.bind_eq_some_iff.1 h
      obtain ⟨hb, hv⟩ := tailBits?_eq_some hx
      cases more with
      | succ more =>
          obtain ⟨c, u, s, rfl, rfl, hs, hlength, hc, hl⟩ := ihMore x more h
          refine ⟨c, u, b :: s, rfl, rfl, List.forall_mem_cons.2 ⟨hb, hs⟩, congrArg (· + 1) hlength, ?_, hl⟩
          rw [hc, hv, bitsWith, bitsWith, List.foldl_cons]
      | zero =>
          simp only [Option.bind_eq_bind, Option.bind_eq_some_iff] at h
          obtain ⟨c, hc, u, hu, h⟩ := h
          cases h
          obtain ⟨hval, hl⟩ := scalar?_bounds hc
          refine ⟨c, u, [b], rfl, congrArg (b :: ·) (ihLast hu), List.forall_mem_singleton.2 hb, rfl, ?_, ?_⟩
          · rw [hval, hv, bitsWith, List.foldl_cons, List.foldl_nil]
          · rwa [hval]

theorem noSurrogate_of_decode? {b : Bytes} {t : Text} (h : decode? b = some t) : t.NoSurrogate :=
  noSurrogate_of_decodeInside? h

/-- The bytes that are read are the bytes of one text, and it has no surrogate. -/
theorem decode?_eq_some_iff {b : Bytes} {t : Text} :
    decode? b = some t ↔ t.NoSurrogate ∧ b = bytes t := by
  constructor
  · intro h
    exact ⟨noSurrogate_of_decode? h, readsAs_of_decodeInside? h⟩
  · rintro ⟨ht, rfl⟩
    exact decode?_of_encode? (encode?_bytes ht)

end Utf8

end Keystroke
