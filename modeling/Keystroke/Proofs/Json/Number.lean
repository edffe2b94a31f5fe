import Keystroke.Proofs.Digits
import Keystroke.Proofs.Json.NumberText

namespace Keystroke.Json

open CodeUnit Numeral

theorem endsNumber_nil : EndsNumber ([] : Bytes) := by simp [EndsNumber]

theorem endsNumber_comma (r : Bytes) : EndsNumber (0x2C :: r) := by
  simp only [EndsNumber, List.head?_cons, Option.mem_some, forall_eq']
  decide

theorem endsNumber_brace (r : Bytes) : EndsNumber (0x7D :: r) := by
  simp only [EndsNumber, List.head?_cons, Option.mem_some, forall_eq']
  decide

theorem isNumeral_digits (n : Nat) : IsNumeral (digits 10 n) where
  lt := fun _ => lt_of_mem_digits (by decide)
  ne_nil := digits_ne_nil 10 n
  lead := digits_of_head?_eq_zero (by decide)

theorem IsNumeral.cut {ds es : List Nat} (h : IsNumeral ds) (hp : es <+: ds) (hne : es ≠ []) :
    IsNumeral es where
  lt := fun d hd => h.lt d (hp.subset hd)
  ne_nil := hne
  lead := by
    obtain ⟨t, rfl⟩ := hp
    cases es with
    | nil => exact absurd rfl hne
    | cons d es =>
        intro hz
        have := h.lead (by simpa using hz)
        simp only [List.cons_append, List.cons.injEq, List.append_eq_nil_iff] at this
        rw [this.1, this.2.1]

theorem digitsText_map_digitByte {ds : List Nat} (h : ∀ d ∈ ds, d < 10) :
    DigitsText ds (ds.map digitByte) := by
  induction ds with
  | nil => exact .nil
  | cons d ds ih =>
      obtain ⟨hd, hds⟩ := List.forall_mem_cons.1 h
      exact .cons hd (toNat_digitByte_decimal hd) (ih hds)

theorem eq_of_digitsText {ds : List Nat} {b : Bytes} (h : DigitsText ds b) : b = ds.map digitByte := by
  induction h with
  | nil => rfl
  | cons hd hc _ ih =>
      rw [List.map_cons, ← ih, List.cons.injEq]
      exact ⟨UInt8.toNat_inj.1 (hc.trans (toNat_digitByte_decimal hd).symm), rfl⟩

theorem IsNumeral.eq_of_value_eq {ds es : List Nat} (hd : IsNumeral ds) (he : IsNumeral es)
    (h : value 10 ds = value 10 es) : ds = es := by
  -- of two numerals the longer one is the larger, unless it is the longer by a leading zero
  have hlength {ds es : List Nat} (hd : IsNumeral ds) (he : IsNumeral es)
      (h : value 10 ds = value 10 es) : es.length ≤ ds.length := by
    refine Nat.le_of_not_lt fun hlt => ?_
    have hpos := List.length_pos_iff.2 hd.ne_nil
    obtain ⟨e, es, rfl⟩ := List.exists_cons_of_ne_nil he.ne_nil
    by_cases hz : e = 0
    · have hlead := he.lead (by rw [hz]; rfl)
      rw [hlead] at hlt
      simp only [List.length_cons, List.length_nil] at hlt
      omega
    · have hle : 10 ^ es.length ≤ value 10 (e :: es) := pow_le_value hz es
      have hv := value_lt hd.lt
      rw [h] at hv
      have hpow : 10 ^ ds.length ≤ 10 ^ es.length :=
        Nat.pow_le_pow_right (by decide) (Nat.le_of_lt_succ hlt)
      omega
  exact value_inj hd.lt he.lt (Nat.le_antisymm (hlength he hd h.symm) (hlength hd he h)) h

theorem numberText_numeral {ds : List Nat} (h : IsNumeral ds) (negative : Bool) :
    NumberText { negative, whole := ds } (signBytes negative ++ ds.map digitByte) := by
  have hsign : SignText negative (signBytes negative) := by
    cases negative with
    | false => exact .none
    | true => exact .minus rfl
  have hs := NumberText.mk hsign (digitsText_map_digitByte h.lt) h .none .none
  rwa [List.append_nil, List.append_nil] at hs

theorem numberText_decimal (z : Int) : NumberText (.ofInt z) (Utf8.bytes (decimal z)) := by
  rw [bytes_decimal]
  exact numberText_numeral (isNumeral_digits z.natAbs) _

/-- An integer as it may be spelled: its decimal text, and zero with a minus as well. -/
def IntegerText (z : Int) (b : Bytes) : Prop :=
  b = Utf8.bytes (decimal z) ∨ z = 0 ∧ b = Utf8.bytes "-0"

theorem numberText_of_isInteger {l : Literal} {b : Bytes} (h : NumberText l b)
    (hi : l.isInteger = true) :
    IsNumeral l.whole ∧ b = signBytes l.negative ++ l.whole.map digitByte := by
  cases h with
  | @mk negative ds fraction exponent a b c d ha hb hds hc hd =>
      cases hc with
      | digits => cases hi
      | none =>
          cases hd with
          | plain | plus | minus => cases hi
          | none =>
              refine ⟨hds, ?_⟩
              rw [eq_of_digitsText hb, List.append_nil, List.append_nil]
              cases ha with
              | none => rfl
              | minus hm =>
                  rename_i u
                  have hu : u = 0x2D := UInt8.toNat_inj.1 (code_of_is hm)
                  rw [hu]
                  rfl

theorem length_of_numberText {l : Literal} {b : Bytes} (h : NumberText l b) (hi : l.isInteger = true) :
    b.length = l.integerLength := by
  rw [(numberText_of_isInteger h hi).2, List.length_append, List.length_map, Literal.integerLength,
    Nat.add_comm]
  cases l.negative <;> rfl

theorem integerText_iff {z : Int} {b : Bytes} :
    IntegerText z b ↔ ∃ l : Literal, NumberText l b ∧ l.isInteger = true ∧ l.integer = z := by
  constructor
  · rintro (rfl | ⟨rfl, rfl⟩)
    · exact ⟨_, numberText_decimal z, Literal.isInteger_ofInt z, Literal.integer_ofInt z⟩
    · have hzero : IsNumeral [0] := isNumeral_digits 0
      exact ⟨_, numberText_numeral hzero true, rfl, rfl⟩
  · rintro ⟨l, h, hi, rfl⟩
    obtain ⟨hds, rfl⟩ := numberText_of_isInteger h hi
    have habs : l.integer.natAbs = value 10 l.whole := by
      rw [Literal.integer]
      split <;> simp
    have hwhole : digits 10 l.integer.natAbs = l.whole := by
      refine (isNumeral_digits _).eq_of_value_eq hds ?_
      rw [value_digits (by decide), habs]
    by_cases hz : l.negative = true ∧ value 10 l.whole = 0
    · obtain ⟨hn, hv⟩ := hz
      have hw : l.whole = [0] := hds.eq_of_value_eq (isNumeral_digits 0) hv
      refine .inr ⟨?_, ?_⟩
      · rw [Literal.integer, hv, hn]
        rfl
      · rw [hn, hw]
        rfl
    · refine .inl ?_
      rw [bytes_decimal, hwhole]
      congr 1
      have hsign : decide (l.integer < 0) = l.negative := by
        rw [Literal.integer]
        cases hn : l.negative with
        | false => simp
        | true =>
            have : value 10 l.whole ≠ 0 := fun hv => hz ⟨hn, hv⟩
            simp only [if_true, decide_eq_true_eq]
            omega
      rw [hsign]

end Keystroke.Json
