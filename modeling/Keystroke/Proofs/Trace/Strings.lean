import Keystroke.Proofs.Json.Strings
import Keystroke.Trace.Printer
import Keystroke.Trace.Reader

namespace Keystroke.Trace

open Json CodeUnit Numeral

inductive LetterEscape : UInt8 → Char → Prop
  | quote : LetterEscape 0x22 '"'
  | backslash : LetterEscape 0x5C '\\'
  | slash : LetterEscape 0x2F '/'
  | backspace : LetterEscape 0x62 '\x08'
  | formFeed : LetterEscape 0x66 '\x0c'
  | lineFeed : LetterEscape 0x6E '\n'
  | carriageReturn : LetterEscape 0x72 '\r'
  | tab : LetterEscape 0x74 '\t'

inductive HexDigit (b : UInt8) (d : Nat) : Prop
  | decimal (hd : d < 10) (hb : b.toNat = 0x30 + d)
  | upper (hd : 10 ≤ d ∧ d < 16) (hb : b.toNat = 0x41 + (d - 10))
  | lower (hd : 10 ≤ d ∧ d < 16) (hb : b.toNat = 0x61 + (d - 10))

inductive HexUnit : Bytes → Nat → Prop
  | mk {a₁ a₂ a₃ a₄ : UInt8} {d₁ d₂ d₃ d₄ : Nat} (h₁ : HexDigit a₁ d₁) (h₂ : HexDigit a₂ d₂)
      (h₃ : HexDigit a₃ d₃) (h₄ : HexDigit a₄ d₄) :
      HexUnit [a₁, a₂, a₃, a₄] (d₁ * 0x1000 + d₂ * 0x100 + d₃ * 0x10 + d₄)

/-- A byte of a string as it stands, or an escape, with the bytes that it makes. Only characters can be
escaped, those beyond U+FFFF by a pair of units. -/
inductive PieceOf : Bytes → Bytes → Prop
  | plain {b : UInt8} (hc : 0x20 ≤ b.toNat) (hq : b ≠ 0x22) (hb : b ≠ 0x5C) : PieceOf [b] [b]
  | letter {b : UInt8} {c : Char} (h : LetterEscape b c) : PieceOf [0x5C, b] (String.utf8EncodeChar c)
  | unit {s : Bytes} {c : Char} (h : HexUnit s c.toNat) :
      PieceOf (0x5C :: 0x75 :: s) (String.utf8EncodeChar c)
  | pair {s s' : Bytes} {high low : Nat} {c : Char} (hs : HexUnit s high) (hs' : HexUnit s' low)
      (hhigh : 0xD800 ≤ high ∧ high < 0xDC00) (hlow : 0xDC00 ≤ low ∧ low < 0xE000)
      (hc : c.toNat = 0x10000 + (high - 0xD800) * 0x400 + (low - 0xDC00)) :
      PieceOf (0x5C :: 0x75 :: (s ++ 0x5C :: 0x75 :: s')) (String.utf8EncodeChar c)

/-- The text of a string behind its opening quote, and the bytes it stands for. -/
inductive StringOf : Bytes → Bytes → Prop
  | close : StringOf [0x22] []
  | piece {a x b content : Bytes} (ha : PieceOf a x) (hb : StringOf b content) :
      StringOf (a ++ b) (x ++ content)

theorem eq_of_is {b x : UInt8} {c : Char} (h : is b c = true) (hx : x.toNat = c.toNat) : b = x :=
  UInt8.toNat_inj.1 ((code_of_is h).trans hx.symm)

theorem is_of_toNat {b : UInt8} {c : Char} (h : b.toNat = c.toNat) : is b c = true :=
  beq_iff_eq.2 h

theorem is_iff {b x : UInt8} {c : Char} (hx : x.toNat = c.toNat) : is b c = true ↔ b = x :=
  ⟨fun h => eq_of_is h hx, fun h => is_of_toNat (h ▸ hx)⟩

theorem not_is_iff {b x : UInt8} {c : Char} (hx : x.toNat = c.toNat) : is b c = false ↔ b ≠ x := by
  rw [← Bool.not_eq_true, is_iff hx]

theorem letterEscape?_eq_some_iff {b : UInt8} {u : CodePoint} :
    letterEscape? b = some u ↔ ∃ c, LetterEscape b c ∧ u = .ofChar c := by
  constructor
  · intro h
    obtain ⟨p, hp, rfl⟩ := Option.map_eq_some_iff.1 h
    have hmem := List.mem_of_find?_eq_some hp
    have hb : b.toNat = p.1.toNat := code_of_is (List.find?_some (p := fun e : Char × Char => is b e.1) hp)
    refine ⟨p.2, ?_, rfl⟩
    have hletter : ∀ p ∈ escapes, ∃ x : UInt8, x.toNat = p.1.toNat ∧ LetterEscape x p.2 := by
      simp only [escapes, List.forall_mem_cons]
      exact ⟨⟨_, rfl, .quote⟩, ⟨_, rfl, .backslash⟩, ⟨_, rfl, .slash⟩, ⟨_, rfl, .backspace⟩,
        ⟨_, rfl, .formFeed⟩, ⟨_, rfl, .lineFeed⟩, ⟨_, rfl, .carriageReturn⟩, ⟨_, rfl, .tab⟩, nofun⟩
    obtain ⟨x, hx, hl⟩ := hletter p hmem
    rwa [UInt8.toNat_inj.1 (hb.trans hx.symm)]
  · rintro ⟨c, h, rfl⟩
    cases h <;> rfl

theorem hexDigit?_eq_some_iff {b : UInt8} {d : Nat} : hexDigit? b = some d ↔ HexDigit b d := by
  have hlt : code b < 0x110000 := Nat.lt_trans b.toNat_lt (by decide)
  rw [hexDigit?, CodePoint.ofNat?, dif_pos hlt, Option.bind_some, CodePoint.digit?]
  have hcode : code b = b.toNat := rfl
  simp only [hcode, Option.ite_none_right_eq_some, Option.some.injEq]
  constructor
  · rintro ⟨hd, he⟩
    rw [he] at hd
    split at he
    · exact .decimal (by omega) (by omega)
    split at he
    · exact .upper (by omega) (by omega)
    split at he
    · exact .lower (by omega) (by omega)
    · omega
  · rintro (⟨hd, hb⟩ | ⟨hd, hb⟩ | ⟨hd, hb⟩)
    · rw [if_pos (by omega)]
      omega
    · rw [if_neg (by omega), if_pos (by omega)]
      omega
    · rw [if_neg (by omega), if_neg (by omega), if_pos (by omega)]
      omega

theorem HexDigit.lt {b : UInt8} {d : Nat} (h : HexDigit b d) : d < 16 := by
  cases h <;> omega

theorem hexUnit?_eq_some_iff {a₁ a₂ a₃ a₄ : UInt8} {u : CodePoint} :
    hexUnit? a₁ a₂ a₃ a₄ = some u ↔ HexUnit [a₁, a₂, a₃, a₄] u.val := by
  have hvalue (d₁ d₂ d₃ d₄ : Nat) :
      value 16 [d₁, d₂, d₃, d₄] = d₁ * 0x1000 + d₂ * 0x100 + d₃ * 0x10 + d₄ := by
    simp only [value, List.foldl]
    omega
  simp only [hexUnit?, Option.bind_eq_bind, Option.bind_eq_some_iff, hexDigit?_eq_some_iff]
  constructor
  · rintro ⟨d₁, h₁, d₂, h₂, d₃, h₃, d₄, h₄, hu⟩
    rw [CodePoint.val_of_ofNat? hu, hvalue]
    exact .mk h₁ h₂ h₃ h₄
  · intro h
    generalize hn : u.val = n at h
    cases h with
    | @mk _ _ _ _ d₁ d₂ d₃ d₄ h₁ h₂ h₃ h₄ =>
      refine ⟨d₁, h₁, d₂, h₂, d₃, h₃, d₄, h₄, ?_⟩
      rw [hvalue, ← hn, CodePoint.ofNat?_val]

theorem exists_ofPair {high low : CodePoint} (hhigh : high.isHighSurrogate = true)
    (hlow : low.isLowSurrogate = true) :
    ∃ c : Char, c.toNat = 0x10000 + (high.val - 0xD800) * 0x400 + (low.val - 0xDC00) ∧
      ofPair high low = .ofChar c := by
  rw [CodePoint.isHighSurrogate_iff] at hhigh
  rw [CodePoint.isLowSurrogate_iff] at hlow
  have hvalid : Nat.isValidChar (0x10000 + (high.val - 0xD800) * 0x400 + (low.val - 0xDC00)) := by
    rw [Nat.isValidChar]
    omega
  refine ⟨Char.ofNatAux _ hvalid, rfl, ?_⟩
  rw [ofPair, CodePoint.ofNat?, dif_pos (by omega), Option.getD_some]
  rfl

theorem stringBytes?_escaped {u : CodePoint} (h : u.isSurrogate = false) (ps : List (Piece UInt8)) :
    stringBytes? (.escaped u :: ps) = (stringBytes? ps).map (u.utf8 ++ ·) := by
  have hs := Bool.eq_false_iff.1 h
  rw [ne_eq, CodePoint.isSurrogate_iff, not_or] at hs
  rw [stringBytes?.eq_def]
  simp only [if_neg hs.1, if_neg hs.2]

theorem stringBytes?_pair {high low : CodePoint} (hhigh : high.isHighSurrogate = true)
    (hlow : low.isLowSurrogate = true) (ps : List (Piece UInt8)) :
    stringBytes? (.escaped high :: .escaped low :: ps) =
      (stringBytes? ps).map ((ofPair high low).utf8 ++ ·) := by
  rw [stringBytes?, if_pos hhigh]
  simp only [if_pos hlow]

inductive EscapeOf : Bytes → CodePoint → Prop
  | letter {b : UInt8} {c : Char} (h : LetterEscape b c) : EscapeOf [b] (.ofChar c)
  | unit {s : Bytes} {u : CodePoint} (h : HexUnit s u.val) : EscapeOf (0x75 :: s) u

theorem exists_escapeOf {s : Bytes} {u : CodePoint} {ps : List (Piece UInt8)}
    (h : ClosedString s (.escaped u :: ps)) :
    ∃ a b, EscapeOf a u ∧ ClosedString b ps ∧ s = 0x5C :: (a ++ b) := by
  cases h with
  | @letter c e _ s _ hc hu he h =>
      obtain ⟨c', hl, rfl⟩ := letterEscape?_eq_some_iff.1 he
      exact ⟨[e], s, .letter hl, h, by rw [eq_of_is hc (x := 0x5C) rfl]; rfl⟩
  | @unit c e a₁ a₂ a₃ a₄ _ s _ hc he hu h =>
      refine ⟨_, s, .unit (hexUnit?_eq_some_iff.1 hu), h, ?_⟩
      rw [eq_of_is hc (x := 0x5C) rfl, eq_of_is he (x := 0x75) rfl]
      rfl

theorem EscapeOf.hexUnit {a : Bytes} {u : CodePoint} (h : EscapeOf a u) (hs : u.isSurrogate = true) :
    ∃ s, HexUnit s u.val ∧ a = 0x75 :: s := by
  cases h with
  | letter => rw [CodePoint.isSurrogate_ofChar] at hs; cases hs
  | @unit s _ h => exact ⟨s, h, rfl⟩

theorem EscapeOf.pieceOf {a : Bytes} {u : CodePoint} (h : EscapeOf a u) (hs : u.isSurrogate = false) :
    PieceOf (0x5C :: a) u.utf8 := by
  cases h with
  | letter h =>
      rw [CodePoint.utf8_ofChar]
      exact .letter h
  | unit h =>
      obtain ⟨c, rfl⟩ := CodePoint.exists_ofChar hs
      rw [CodePoint.utf8_ofChar]
      exact .unit h

/-- The pieces that a reader finds make a string of the grammar. -/
theorem stringOf_of_closedString {b content : Bytes} {ps : List (Piece UInt8)} (hb : ClosedString b ps)
    (hc : stringBytes? ps = some content) : StringOf b content := by
  fun_induction stringBytes? ps generalizing b content with
  | case1 =>
      cases hc
      cases hb with
      | close hq =>
          rw [eq_of_is hq (x := 0x22) rfl]
          exact .close
  | case2 x ps ih =>
      obtain ⟨t, ht, rfl⟩ := Option.map_eq_some_iff.1 hc
      cases hb with
      | plain hq hb hx h =>
          exact .piece (.plain hx ((not_is_iff rfl).1 hq) ((not_is_iff rfl).1 hb)) (ih h ht)
  | case3 high hhigh low ps hlow ih =>
      obtain ⟨t, ht, rfl⟩ := Option.map_eq_some_iff.1 hc
      obtain ⟨a, _, ha, hlower, rfl⟩ := exists_escapeOf hb
      obtain ⟨a', _, ha', hrest, rfl⟩ := exists_escapeOf hlower
      obtain ⟨s, hs, rfl⟩ := ha.hexUnit (CodePoint.isSurrogate_iff.2 (.inl hhigh))
      obtain ⟨s', hs', rfl⟩ := ha'.hexUnit (CodePoint.isSurrogate_iff.2 (.inr hlow))
      obtain ⟨c, hc, hpair⟩ := exists_ofPair hhigh hlow
      rw [hpair, CodePoint.utf8_ofChar]
      have hp := PieceOf.pair hs hs' (CodePoint.isHighSurrogate_iff.1 hhigh)
        (CodePoint.isLowSurrogate_iff.1 hlow) hc
      have h := StringOf.piece hp (ih hrest ht)
      simpa using h
  | case4 | case5 | case6 => cases hc
  | case7 u ps hhigh hlow ih =>
      obtain ⟨t, ht, rfl⟩ := Option.map_eq_some_iff.1 hc
      obtain ⟨a, _, ha, hrest, rfl⟩ := exists_escapeOf hb
      have hs : u.isSurrogate = false :=
        Bool.eq_false_iff.2 fun h => (CodePoint.isSurrogate_iff.1 h).elim hhigh hlow
      exact .piece (ha.pieceOf hs) (ih hrest ht)

theorem HexUnit.exists_digits {s : Bytes} {n : Nat} (h : HexUnit s n) :
    ∃ a₁ a₂ a₃ a₄, s = [a₁, a₂, a₃, a₄] := by
  cases h
  exact ⟨_, _, _, _, rfl⟩

theorem HexUnit.closedString {s b : Bytes} {u : CodePoint} {ps : List (Piece UInt8)}
    (h : HexUnit s u.val) (hb : ClosedString b ps) :
    ClosedString (0x5C :: 0x75 :: (s ++ b)) (.escaped u :: ps) := by
  obtain ⟨a₁, a₂, a₃, a₄, rfl⟩ := h.exists_digits
  exact .unit rfl rfl (hexUnit?_eq_some_iff.2 h) hb

theorem StringOf.exists_pieces {b content : Bytes} (h : StringOf b content) :
    ∃ ps, ClosedString b ps ∧ stringBytes? ps = some content := by
  induction h with
  | close => exact ⟨[], .close rfl, rfl⟩
  | @piece a x b content ha _ ih =>
      obtain ⟨ps, hb, hc⟩ := ih
      cases ha with
      | plain hx hq hs =>
          refine ⟨_, .plain ((not_is_iff rfl).2 hq) ((not_is_iff rfl).2 hs) hx hb, ?_⟩
          rw [stringBytes?, hc]
          rfl
      | @letter e c he =>
          have hu : is e 'u' = false := by cases he <;> rfl
          refine ⟨_, .letter rfl hu (letterEscape?_eq_some_iff.2 ⟨c, he, rfl⟩) hb, ?_⟩
          rw [stringBytes?_escaped (CodePoint.isSurrogate_ofChar c), hc, CodePoint.utf8_ofChar]
          rfl
      | @unit s c hs =>
          refine ⟨_, HexUnit.closedString (u := .ofChar c) hs hb, ?_⟩
          rw [stringBytes?_escaped (CodePoint.isSurrogate_ofChar c), hc, CodePoint.utf8_ofChar]
          rfl
      | @pair s s' high low c hs hs' hhigh hlow hcode =>
          obtain ⟨high, rfl⟩ : ∃ u : CodePoint, u.val = high := ⟨⟨high, by omega⟩, rfl⟩
          obtain ⟨low, rfl⟩ : ∃ u : CodePoint, u.val = low := ⟨⟨low, by omega⟩, rfl⟩
          rw [← CodePoint.isHighSurrogate_iff] at hhigh
          rw [← CodePoint.isLowSurrogate_iff] at hlow
          obtain ⟨d, hd, hpair⟩ := exists_ofPair hhigh hlow
          obtain rfl : d = c := Char.toNat_inj.1 (hd.trans hcode.symm)
          have hb := hs.closedString (hs'.closedString hb)
          refine ⟨_, by simpa using hb, ?_⟩
          rw [stringBytes?_pair hhigh hlow, hc, hpair, CodePoint.utf8_ofChar]
          rfl

theorem string?_eq_some_iff {s content r : Bytes} :
    string? s = some (content, r) ↔ ∃ b, StringOf b content ∧ s = b ++ r := by
  simp only [string?, Option.bind_eq_bind, Option.bind_eq_some_iff, Option.pure_def]
  constructor
  · rintro ⟨⟨ps, r'⟩, hp, content', hc, h⟩
    cases h
    obtain ⟨b, hb, rfl⟩ := pieces?_eq_some_iff.1 hp
    exact ⟨b, stringOf_of_closedString hb hc, rfl⟩
  · rintro ⟨b, h, rfl⟩
    obtain ⟨ps, hb, hc⟩ := h.exists_pieces
    exact ⟨(ps, r), hb.pieces? r, content, hc, rfl⟩

/-- A character is written as an escape of one letter, as a numbered escape, or as itself. -/
theorem escapedChar_cases (c : CodePoint) :
    (∃ p ∈ escapes, c = .ofChar p.2 ∧ escapedChar c = [.ofChar '\\', .ofChar p.1]) ∨
      (c.val < 0x20 ∧ escapedChar c = "\\u" ++ zeroPadded 4 (natural 16 c.val)) ∨
      (0x20 ≤ c.val ∧ c.val ≠ 0x22 ∧ c.val ≠ 0x5C ∧ escapedChar c = [c]) := by
  have ne {x : Char} (hx : c ≠ .ofChar x) : c.val ≠ x.toNat := fun e => hx (CodePoint.ext e)
  rw [escapedChar]
  by_cases hq : c = .ofChar '"'
  · rw [if_pos hq]
    exact .inl ⟨('"', '"'), by decide, hq, rfl⟩
  by_cases hb : c = .ofChar '\\'
  · rw [if_neg hq, if_pos hb]
    exact .inl ⟨('\\', '\\'), by decide, hb, rfl⟩
  rw [if_neg hq, if_neg hb]
  by_cases hd : c = .ofChar '\x08'
  · rw [if_pos hd]
    exact .inl ⟨('b', '\x08'), by decide, hd, rfl⟩
  by_cases hf : c = .ofChar '\x0c'
  · rw [if_neg hd, if_pos hf]
    exact .inl ⟨('f', '\x0c'), by decide, hf, rfl⟩
  rw [if_neg hd, if_neg hf]
  by_cases hn : c = .ofChar '\n'
  · rw [if_pos hn]
    exact .inl ⟨('n', '\n'), by decide, hn, rfl⟩
  by_cases hr : c = .ofChar '\r'
  · rw [if_neg hn, if_pos hr]
    exact .inl ⟨('r', '\r'), by decide, hr, rfl⟩
  by_cases ht : c = .ofChar '\t'
  · rw [if_neg hn, if_neg hr, if_pos ht]
    exact .inl ⟨('t', '\t'), by decide, ht, rfl⟩
  rw [if_neg hn, if_neg hr, if_neg ht]
  by_cases hlt : c.val < 0x20
  · rw [if_pos hlt]
    exact .inr (.inl ⟨hlt, rfl⟩)
  · rw [if_neg hlt]
    exact .inr (.inr ⟨Nat.not_lt.1 hlt, ne hq, ne hb, rfl⟩)

theorem StringOf.letter {p : Char × Char} (hp : p ∈ escapes) {b content : Bytes}
    (h : StringOf b content) :
    StringOf (Utf8.bytes [.ofChar '\\', .ofChar p.1] ++ b)
      ((CodePoint.ofChar p.2).utf8 ++ content) := by
  have hletter : ∀ p ∈ escapes, ∃ x, (CodePoint.ofChar p.1).utf8 = [x] ∧ LetterEscape x p.2 := by
    simp only [escapes, List.forall_mem_cons]
    exact ⟨⟨_, rfl, .quote⟩, ⟨_, rfl, .backslash⟩, ⟨_, rfl, .slash⟩, ⟨_, rfl, .backspace⟩,
      ⟨_, rfl, .formFeed⟩, ⟨_, rfl, .lineFeed⟩, ⟨_, rfl, .carriageReturn⟩, ⟨_, rfl, .tab⟩, nofun⟩
  obtain ⟨x, hx, hl⟩ := hletter p hp
  have hbytes : Utf8.bytes [.ofChar '\\', .ofChar p.1] = [0x5C, x] := by
    rw [Utf8.bytes_cons, Utf8.bytes_cons, hx]
    rfl
  rw [hbytes, CodePoint.utf8_ofChar]
  exact .piece (.letter hl) h

theorem StringOf.plain {bs : Bytes}
    (hbs : ∀ x ∈ bs, 0x20 ≤ x.toNat ∧ x.toNat ≠ 0x22 ∧ x.toNat ≠ 0x5C) {b content : Bytes}
    (h : StringOf b content) : StringOf (bs ++ b) (bs ++ content) := by
  induction bs with
  | nil => exact h
  | cons x bs ih =>
      obtain ⟨⟨hx, hq, hs⟩, hbs⟩ := List.forall_mem_cons.1 hbs
      have hpiece : PieceOf [x] [x] := .plain hx (fun e => hq (e ▸ rfl)) fun e => hs (e ▸ rfl)
      simpa using StringOf.piece hpiece (ih hbs)

theorem StringOf.unit {c : CodePoint} (hc : c.val < 0x20) {b content : Bytes}
    (h : StringOf b content) :
    StringOf (Utf8.bytes ("\\u" ++ zeroPadded 4 (natural 16 c.val)) ++ b) (c.utf8 ++ content) := by
  obtain ⟨a₁, a₂, a₃, a₄, ha, hu⟩ := hexUnit?_paddedDigits (n := c.val) (by omega)
    (f := digitByte) fun d hd => toNat_digitByte hd
  have hs : c.isSurrogate = false := CodePoint.isSurrogate_of_lt (Nat.lt_trans hc (by decide))
  rw [Utf8.bytes_append, bytes_zeroPadded (by decide) (by decide), ha]
  exact .piece ((EscapeOf.unit (hexUnit?_eq_some_iff.1 (hu.trans c.ofNat?_val))).pieceOf hs) h

theorem plain_bytes {c : CodePoint} (hq : c.val ≠ 0x22) (hb : c.val ≠ 0x5C) (hc : 0x20 ≤ c.val) :
    ∀ x ∈ c.utf8, 0x20 ≤ x.toNat ∧ x.toNat ≠ 0x22 ∧ x.toNat ≠ 0x5C := by
  intro x hx
  by_cases h : c.val < 0x80
  · rw [CodePoint.utf8_ascii h, List.mem_singleton] at hx
    rw [hx, UInt8.toNat_ofNat_of_lt' (show c.val < 256 by omega)]
    exact ⟨hc, hq, hb⟩
  · have := CodePoint.le_of_mem_utf8 (Nat.not_lt.1 h) hx
    omega

theorem StringOf.escapedChar {c : CodePoint} (hc : c.isSurrogate = false) {b content : Bytes}
    (h : StringOf b content) :
    StringOf (Utf8.bytes (escapedChar c) ++ b) (c.utf8 ++ content) := by
  rcases escapedChar_cases c with ⟨p, hp, rfl, he⟩ | ⟨hlt, he⟩ | ⟨hle, hq, hb, he⟩
  · rw [he]
    exact h.letter hp
  · rw [he]
    exact h.unit hlt
  · rw [he, Utf8.bytes_cons, Utf8.bytes_nil, List.append_nil]
    exact h.plain (plain_bytes hq hb hle)

theorem stringOf_escaped {t : Text} (h : t.NoSurrogate) :
    StringOf (Utf8.bytes (t.flatMap escapedChar) ++ [0x22]) (Utf8.bytes t) := by
  induction t with
  | nil => exact .close
  | cons c t ih =>
      obtain ⟨hc, ht⟩ := List.forall_mem_cons.1 h
      rw [List.flatMap_cons, Utf8.bytes_append, List.append_assoc]
      exact (ih ht).escapedChar hc

end Keystroke.Trace
