import Keystroke.Proofs.Graphic
import Keystroke.Proofs.Json.Pairs
import Keystroke.Proofs.Json.Strings
import Keystroke.Settings

namespace Keystroke.Settings

open Json CodeUnit Numeral

def highHalf (c : CodePoint) : CodePoint :=
  ⟨0xD800 + (c.val - 0x10000) / 0x400, by have := c.val_lt; omega⟩

def lowHalf (c : CodePoint) : CodePoint :=
  ⟨0xDC00 + (c.val - 0x10000) % 0x400, by omega⟩

def piecesOf (c : CodePoint) : List (Piece CodePoint) :=
  if 0x20 ≤ c.val ∧ c.val ≤ 0x7E ∧ c.val ≠ 0x22 ∧ c.val ≠ 0x5C then [.plain c]
  else if c.val < 0x10000 then [.escaped c]
  else [.escaped (highHalf c), .escaped (lowHalf c)]

/-- What a text is read back as once it has been written. -/
def readBack (t : Text) : Text := stringText (t.flatMap piecesOf)

theorem escapedChar_cases (c : CodePoint) :
    (∃ p ∈ escapes, p.1 ≠ '/' ∧ c = .ofChar p.2 ∧ escapedChar c = [.ofChar '\\', .ofChar p.1]) ∨
      (0x20 ≤ c.val ∧ c.val ≤ 0x7E ∧ c.val ≠ 0x22 ∧ c.val ≠ 0x5C ∧ escapedChar c = [c]) ∨
      (¬ (0x20 ≤ c.val ∧ c.val ≤ 0x7E) ∧ c.val < 0x10000 ∧ escapedChar c = escapedUnit c.val) ∨
      (0x10000 ≤ c.val ∧
        escapedChar c = escapedUnit (highHalf c).val ++ escapedUnit (lowHalf c).val) := by
  have ne {x : Char} (hx : c ≠ .ofChar x) : c.val ≠ x.toNat := fun e => hx (CodePoint.ext e)
  rw [escapedChar]
  by_cases hq : c = .ofChar '"'
  · rw [if_pos hq]
    exact .inl ⟨('"', '"'), by decide, by decide, hq, rfl⟩
  by_cases hb : c = .ofChar '\\'
  · rw [if_neg hq, if_pos hb]
    exact .inl ⟨('\\', '\\'), by decide, by decide, hb, rfl⟩
  rw [if_neg hq, if_neg hb]
  by_cases hn : c = .ofChar '\n'
  · rw [if_pos hn]
    exact .inl ⟨('n', '\n'), by decide, by decide, hn, rfl⟩
  by_cases hr : c = .ofChar '\r'
  · rw [if_neg hn, if_pos hr]
    exact .inl ⟨('r', '\r'), by decide, by decide, hr, rfl⟩
  rw [if_neg hn, if_neg hr]
  by_cases ht : c = .ofChar '\t'
  · rw [if_pos ht]
    exact .inl ⟨('t', '\t'), by decide, by decide, ht, rfl⟩
  by_cases hf : c = .ofChar '\x0c'
  · rw [if_neg ht, if_pos hf]
    exact .inl ⟨('f', '\x0c'), by decide, by decide, hf, rfl⟩
  by_cases hd : c = .ofChar '\x08'
  · rw [if_neg ht, if_neg hf, if_pos hd]
    exact .inl ⟨('b', '\x08'), by decide, by decide, hd, rfl⟩
  rw [if_neg ht, if_neg hf, if_neg hd]
  by_cases hplain : 0x20 ≤ c.val ∧ c.val ≤ 0x7E
  · rw [if_pos hplain]
    exact .inr (.inl ⟨hplain.1, hplain.2, ne hq, ne hb, rfl⟩)
  by_cases hlt : c.val < 0x10000
  · rw [if_neg hplain, if_pos hlt]
    exact .inr (.inr (.inl ⟨hplain, hlt, rfl⟩))
  · rw [if_neg hplain, if_neg hlt]
    exact .inr (.inr (.inr ⟨Nat.not_lt.1 hlt, rfl⟩))

theorem graphic_of_mem_escapedUnit (n : Nat) : ∀ x ∈ escapedUnit n, Graphic x := by
  have hmark : ∀ x ∈ (("\\u" : Text)), Graphic x := by decide
  exact List.forall_mem_append.2 ⟨hmark, graphic_of_mem_zeroPadded 4 fun _ =>
    graphic_of_mem_natural (by decide) (by decide)⟩

theorem graphic_of_mem_escapedChar (c : CodePoint) : ∀ x ∈ escapedChar c, Graphic x := by
  have hletter : ∀ p ∈ escapes, ∀ x ∈ ([.ofChar '\\', .ofChar p.1] : Text), Graphic x := by decide
  rcases escapedChar_cases c with ⟨p, hp, -, -, he⟩ | ⟨hle, hge, -, -, he⟩ | ⟨-, -, he⟩ | ⟨-, he⟩
  · rw [he]
    exact hletter p hp
  · rw [he]
    exact List.forall_mem_singleton.2 ⟨hle, Nat.lt_succ_of_le hge⟩
  · rw [he]
    exact graphic_of_mem_escapedUnit _
  · rw [he]
    exact List.forall_mem_append.2 ⟨graphic_of_mem_escapedUnit _, graphic_of_mem_escapedUnit _⟩

theorem graphic_of_mem_jsonString (t : Text) : ∀ x ∈ jsonString t, Graphic x := by
  have hquote : ∀ x ∈ (("\"" : Text)), Graphic x := by decide
  refine List.forall_mem_append.2 ⟨List.forall_mem_append.2 ⟨hquote, fun x hx => ?_⟩, hquote⟩
  obtain ⟨c, -, hc⟩ := List.mem_flatMap.1 hx
  exact graphic_of_mem_escapedChar c x hc

theorem closedString_unit {u : CodePoint} (hu : u.val < 0x10000) {b : Text}
    {ps : List (Piece CodePoint)} (h : ClosedString b ps) :
    ClosedString (escapedUnit u.val ++ b) (.escaped u :: ps) := by
  obtain ⟨a₁, a₂, a₃, a₄, ha, hunit⟩ := hexUnit?_paddedDigits (n := u.val) hu
    (f := CodePoint.ofDigit) fun _ _ => rfl
  rw [escapedUnit, zeroPadded_natural, ha]
  exact .unit rfl rfl (hunit.trans u.ofNat?_val) h

theorem closedString_escapedChar (c : CodePoint) {b : Text} {ps : List (Piece CodePoint)}
    (h : ClosedString b ps) : ClosedString (escapedChar c ++ b) (piecesOf c ++ ps) := by
  rw [piecesOf]
  rcases escapedChar_cases c with ⟨p, hp, hslash, rfl, he⟩ | ⟨hle, hge, hq, hb, he⟩ | ⟨hn, hlt, he⟩ |
    ⟨hle, he⟩
  · have hletter : ∀ p ∈ escapes, p.1 ≠ '/' → is (CodePoint.ofChar p.1) 'u' = false ∧
        letterEscape? (CodePoint.ofChar p.1) = some (.ofChar p.2) ∧
        (CodePoint.ofChar p.2).val < 0x10000 ∧
        ¬ (0x20 ≤ (CodePoint.ofChar p.2).val ∧ (CodePoint.ofChar p.2).val ≤ 0x7E ∧
          (CodePoint.ofChar p.2).val ≠ 0x22 ∧ (CodePoint.ofChar p.2).val ≠ 0x5C) := by decide
    obtain ⟨hu, hescape, hlt, hn⟩ := hletter p hp hslash
    rw [if_neg hn, if_pos hlt, he]
    exact .letter rfl hu hescape h
  · rw [if_pos ⟨hle, hge, hq, hb⟩, he]
    exact .plain (beq_eq_false_iff_ne.2 hq) (beq_eq_false_iff_ne.2 hb) hle h
  · rw [if_neg fun hr => hn ⟨hr.1, hr.2.1⟩, if_pos hlt, he]
    exact closedString_unit hlt h
  · have hc := c.val_lt
    rw [if_neg (by omega), if_neg (by omega), he, List.append_assoc]
    refine closedString_unit ?_ (closedString_unit ?_ h)
    · rw [highHalf]
      dsimp only
      omega
    · rw [lowHalf]
      dsimp only
      omega

theorem closedString_jsonString (t : Text) :
    ClosedString (t.flatMap escapedChar ++ [.ofChar '"']) (t.flatMap piecesOf) := by
  induction t with
  | nil => exact .close rfl
  | cons c t ih =>
      rw [List.flatMap_cons, List.flatMap_cons, List.append_assoc]
      exact closedString_escapedChar c ih

theorem stringAt_jsonString (t r : Text) :
    stringAt (t.flatMap escapedChar ++ CodePoint.ofChar '"' :: r) = .ok (readBack t, r) := by
  have hp := (closedString_jsonString t).pieces? r
  rw [List.append_assoc] at hp
  rw [stringAt]
  change orFault (pieces? (_ ++ ([CodePoint.ofChar '"'] ++ r))) >>= _ = _
  rw [hp]
  rfl

theorem highHalf_isHigh {c : CodePoint} (h : 0x10000 ≤ c.val) : (highHalf c).isHighSurrogate = true := by
  have hc := c.val_lt
  have hv : (highHalf c).val = 0xD800 + (c.val - 0x10000) / 0x400 := rfl
  simp only [CodePoint.isHighSurrogate, Bool.and_eq_true, decide_eq_true_eq]
  omega

theorem lowHalf_isLow (c : CodePoint) : (lowHalf c).isLowSurrogate = true := by
  have hv : (lowHalf c).val = 0xDC00 + (c.val - 0x10000) % 0x400 := rfl
  simp only [CodePoint.isLowSurrogate, Bool.and_eq_true, decide_eq_true_eq]
  omega

theorem ofPair_halves {c : CodePoint} (h : 0x10000 ≤ c.val) : ofPair (highHalf c) (lowHalf c) = c := by
  apply CodePoint.ext
  rw [val_ofPair (highHalf_isHigh h) (lowHalf_isLow c), highHalf, lowHalf]
  dsimp only
  omega

theorem not_low_of_head_piecesOf {t : Text} (h : ∀ d ∈ t.head?, d.isLowSurrogate = false) {low : CodePoint}
    (hl : (t.flatMap piecesOf).head? = some (.escaped low)) : low.isLowSurrogate = false := by
  cases t with
  | nil => cases hl
  | cons d t =>
      rw [List.flatMap_cons, piecesOf] at hl
      split at hl
      · cases hl
      split at hl
      · cases hl
        exact h low rfl
      · have hd := Nat.not_lt.1 ‹_›
        cases hl
        exact CodePoint.not_low_of_high (highHalf_isHigh hd)

/-- A text with no pair in two halves is what is read back for it. -/
theorem readBack_of_noPair {t : Text} (h : t.NoPair) : readBack t = t := by
  induction t with
  | nil => rfl
  | cons c t ih =>
      obtain ⟨hc, ht⟩ := Text.noPair_cons.1 h
      have ht := ih ht
      rw [readBack] at ht ⊢
      rw [List.flatMap_cons, piecesOf]
      split
      · rw [List.cons_append, List.nil_append, stringText, ht]
      split
      · rw [List.cons_append, List.nil_append, stringText_escaped, ht]
        exact fun hh low hl => not_low_of_head_piecesOf (hc hh) hl
      · have hle := Nat.not_lt.1 ‹_›
        rw [List.cons_append, List.cons_append, List.nil_append,
          stringText_pair (highHalf_isHigh hle) (lowHalf_isLow c), ht, ofPair_halves hle]

end Keystroke.Settings
