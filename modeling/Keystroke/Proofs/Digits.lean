import Keystroke.Numeral.Literal
import Keystroke.Proofs.Utf8

namespace Keystroke

namespace Numeral

theorem head?_digitsOnto_ne_zero {base fuel n : Nat} (h : n < base ^ fuel) (hn : n ≠ 0)
    (tail : List Nat) : (digitsOnto base fuel n tail).head? ≠ some 0 := by
  induction fuel generalizing n tail with
  | zero => simp at h; exact absurd h hn
  | succ fuel ih =>
      rw [digitsOnto]
      split
      · simpa using hn
      · rename_i hb
        have hpos : 0 < base := by
          rcases Nat.eq_zero_or_pos base with rfl | hp
          · simp at h
          · exact hp
        apply ih (Nat.div_lt_of_lt_mul (by rwa [Nat.pow_succ'] at h))
        exact Nat.pos_iff_ne_zero.1 (Nat.div_pos (Nat.not_lt.1 hb) hpos)

theorem digits_of_head?_eq_zero {base n : Nat} (hb : 2 ≤ base)
    (h : (digits base n).head? = some 0) : digits base n = [0] := by
  have hlt : n < base ^ (n.log2 + 1) :=
    Nat.lt_of_lt_of_le Nat.lt_log2_self (Nat.pow_le_pow_left hb _)
  by_cases hn : n = 0
  · subst n
    simp [digits, digitsOnto, Nat.lt_of_lt_of_le Nat.zero_lt_two hb]
  · exact absurd h (head?_digitsOnto_ne_zero hlt hn [])

theorem length_digitsOnto_pos (base fuel n : Nat) (tail : List Nat) :
    tail.length + min 1 fuel ≤ (digitsOnto base fuel n tail).length := by
  induction fuel generalizing n tail with
  | zero => simp [digitsOnto]
  | succ fuel ih =>
      rw [digitsOnto]
      split
      · simp
      · have := ih (n / base) (n % base :: tail)
        simp only [List.length_cons] at this
        omega

theorem digits_ne_nil (base n : Nat) : digits base n ≠ [] := by
  have h := length_digitsOnto_pos base (n.log2 + 1) n []
  exact List.ne_nil_of_length_pos (by simp only [digits] at h ⊢; simp at h; omega)

theorem length_digitsOnto_le {base n k : Nat} (fuel : Nat) (h : n < base ^ k) (hk : 0 < k)
    (tail : List Nat) : (digitsOnto base fuel n tail).length ≤ tail.length + k := by
  induction fuel generalizing n k tail with
  | zero => simp [digitsOnto]
  | succ fuel ih =>
      rw [digitsOnto]
      split
      · simp; omega
      · rename_i hb
        obtain ⟨j, rfl⟩ : ∃ j, k = j + 1 := ⟨k - 1, by omega⟩
        have hj : 0 < j := by
          rcases Nat.eq_zero_or_pos j with rfl | hp
          · simp at h; exact absurd h hb
          · exact hp
        have := ih (Nat.div_lt_of_lt_mul (by rwa [Nat.pow_succ'] at h)) hj (n % base :: tail)
        simp only [List.length_cons] at this
        omega

theorem length_digits_le {base n k : Nat} (h : n < base ^ k) (hk : 0 < k) :
    (digits base n).length ≤ k := by
  simpa [digits] using length_digitsOnto_le (n.log2 + 1) h hk []

theorem value_lt {base : Nat} {ds : List Nat} (h : ∀ d ∈ ds, d < base) :
    value base ds < base ^ ds.length := by
  induction ds with
  | nil => simp [value]
  | cons d ds ih =>
      rw [value_cons, List.length_cons, Nat.pow_succ']
      have hd : d + 1 ≤ base := h d List.mem_cons_self
      have hv := ih fun e he => h e (List.mem_cons_of_mem d he)
      calc d * base ^ ds.length + value base ds < d * base ^ ds.length + base ^ ds.length :=
            Nat.add_lt_add_left hv _
        _ = (d + 1) * base ^ ds.length := by rw [Nat.add_mul, Nat.one_mul]
        _ ≤ base * base ^ ds.length := Nat.mul_le_mul_right _ hd

theorem value_inj {base : Nat} {ds es : List Nat} (hd : ∀ d ∈ ds, d < base) (he : ∀ d ∈ es, d < base)
    (hl : ds.length = es.length) (h : value base ds = value base es) : ds = es := by
  induction ds generalizing es with
  | nil => exact (List.eq_nil_of_length_eq_zero hl.symm).symm
  | cons d ds ih =>
      cases es with
      | nil => cases hl
      | cons e es =>
          have hlength : ds.length = es.length := Nat.succ.inj hl
          obtain ⟨-, hds⟩ := List.forall_mem_cons.1 hd
          obtain ⟨-, hes⟩ := List.forall_mem_cons.1 he
          rw [value_cons, value_cons, hlength] at h
          have hv := value_lt hds
          have hw := value_lt hes
          rw [hlength] at hv
          have hpos : 0 < base ^ es.length := by omega
          have hde : d = e := by
            have := congrArg (· / base ^ es.length) h
            simpa [Nat.mul_add_div hpos, Nat.mul_comm _ (base ^ es.length), Nat.div_eq_of_lt hv,
              Nat.div_eq_of_lt hw] using this
          rw [hde] at h ⊢
          rw [ih hds hes hlength (Nat.add_left_cancel h)]

theorem pow_le_value {base d : Nat} (hd : d ≠ 0) (ds : List Nat) :
    base ^ ds.length ≤ value base (d :: ds) := by
  rw [value_cons]
  exact Nat.le_trans (Nat.le_mul_of_pos_left _ (Nat.pos_of_ne_zero hd)) (Nat.le_add_right _ _)

def paddedDigits (base width n : Nat) : List Nat :=
  List.replicate (width - (digits base n).length) 0 ++ digits base n

theorem value_replicate_zero (base k : Nat) (ds : List Nat) :
    value base (List.replicate k 0 ++ ds) = value base ds := by
  induction k with
  | zero => rfl
  | succ k ih => rw [List.replicate_succ, List.cons_append, value_cons, Nat.zero_mul, Nat.zero_add, ih]

theorem value_paddedDigits {base : Nat} (h : 2 ≤ base) (width n : Nat) :
    value base (paddedDigits base width n) = n := by
  rw [paddedDigits, value_replicate_zero, value_digits h]

theorem length_paddedDigits {base width n : Nat} (h : n < base ^ width) (hw : 0 < width) :
    (paddedDigits base width n).length = width := by
  have := length_digits_le h hw
  simp only [paddedDigits, List.length_append, List.length_replicate]
  omega

theorem lt_of_mem_paddedDigits {base width n d : Nat} (h : 0 < base)
    (hd : d ∈ paddedDigits base width n) : d < base := by
  rcases List.mem_append.1 hd with hd | hd
  · rwa [List.eq_of_mem_replicate hd]
  · exact lt_of_mem_digits h hd

theorem zeroPadded_natural (base width n : Nat) :
    zeroPadded width (natural base n) = (paddedDigits base width n).map CodePoint.ofDigit := by
  rw [zeroPadded, natural, paddedDigits, List.map_append, List.map_replicate, List.length_map]
  rfl

theorem digit?_ofDigit {d : Nat} (h : d < 16) : CodePoint.digit? 16 (CodePoint.ofDigit d) = some d := by
  revert h
  revert d
  decide

theorem natural_inj {base : Nat} (hb : 2 ≤ base) (h : base ≤ 16) {m n : Nat}
    (he : natural base m = natural base n) : m = n := by
  have hback (n : Nat) : (natural base n).map (CodePoint.digit? 16) = (digits base n).map some := by
    rw [natural, List.map_map]
    refine List.map_congr_left fun d hd => digit?_ofDigit ?_
    exact Nat.lt_of_lt_of_le (lt_of_mem_digits (Nat.lt_of_lt_of_le Nat.zero_lt_two hb) hd) h
  have hdigits := congrArg (List.map (CodePoint.digit? 16)) he
  rw [hback, hback, List.map_inj_right fun _ _ => Option.some.inj] at hdigits
  rw [← value_digits hb m, hdigits, value_digits hb]

theorem notMem_natural {base : Nat} (hb : 0 < base) (h : base ≤ 16) {c : CodePoint}
    (hc : ∀ d < 16, CodePoint.ofDigit d ≠ c) (n : Nat) : c ∉ natural base n := by
  intro hm
  obtain ⟨d, hd, he⟩ := List.mem_map.1 hm
  exact hc d (Nat.lt_of_lt_of_le (lt_of_mem_digits hb hd) h) he

theorem sign_natural_inj {base : Nat} (hb : 2 ≤ base) (h : base ≤ 16) {z w : Int}
    (he : sign z ++ natural base z.natAbs = sign w ++ natural base w.natAbs) : z = w := by
  have hminus (n : Nat) : CodePoint.ofChar '-' ∉ natural base n :=
    notMem_natural (Nat.lt_of_lt_of_le Nat.zero_lt_two hb) h (by decide) n
  have hsign (n : Nat) : ("-" : Text) ++ natural base n = CodePoint.ofChar '-' :: natural base n := rfl
  have habs : z < 0 ∧ w < 0 ∨ ¬ z < 0 ∧ ¬ w < 0 → natural base z.natAbs = natural base w.natAbs := by
    rintro (⟨hz, hw⟩ | ⟨hz, hw⟩)
    · simpa [sign, hz, hw] using he
    · simpa [sign, hz, hw] using he
  by_cases hz : z < 0
  · by_cases hw : w < 0
    · have := natural_inj hb h (habs (.inl ⟨hz, hw⟩))
      omega
    · rw [sign, if_pos hz, sign, if_neg hw, hsign, List.nil_append] at he
      exact absurd (he ▸ List.mem_cons_self) (hminus w.natAbs)
  · by_cases hw : w < 0
    · rw [sign, if_neg hz, sign, if_pos hw, hsign, List.nil_append] at he
      exact absurd (he ▸ List.mem_cons_self) (hminus z.natAbs)
    · have := natural_inj hb h (habs (.inr ⟨hz, hw⟩))
      omega

theorem decimal_inj {z w : Int} (h : decimal z = decimal w) : z = w :=
  sign_natural_inj (by decide) (by decide) h

theorem hex_inj {z w : Int} (h : hex z = hex w) : z = w :=
  sign_natural_inj (by decide) (by decide) h

theorem notMem_decimal {c : CodePoint} (hc : ∀ d < 16, CodePoint.ofDigit d ≠ c) (hm : c ≠ '-') (z : Int) :
    c ∉ decimal z := by
  rw [decimal, List.mem_append, not_or]
  refine ⟨?_, notMem_natural (by decide) (by decide) hc _⟩
  rw [sign]
  split
  · exact fun h => hm (List.mem_singleton.1 h)
  · exact List.not_mem_nil

/-- An integer of at most 4300 digits. The sign is not counted. -/
def FewDigits (z : Int) : Prop := (digits 10 z.natAbs).length ≤ 4300

instance (z : Int) : Decidable (FewDigits z) := inferInstanceAs (Decidable (_ ≤ _))

theorem fewDigits_iff {z : Int} : FewDigits z ↔ z.natAbs < 10 ^ digitLimit := by
  constructor
  · intro h
    have hlt : ∀ d ∈ digits 10 z.natAbs, d < 10 := fun d => lt_of_mem_digits (by decide)
    calc z.natAbs = value 10 (digits 10 z.natAbs) := (value_digits (by decide) _).symm
      _ < 10 ^ (digits 10 z.natAbs).length := value_lt hlt
      _ ≤ 10 ^ digitLimit := Nat.pow_le_pow_right (by decide) h
  · intro h
    have hle : (digits 10 z.natAbs).length ≤ digitLimit := length_digits_le h (by decide)
    exact hle

@[irreducible] def tooLong : Int := 10 ^ digitLimit

theorem not_fewDigits_tooLong : ¬ FewDigits tooLong := by
  have hten : (10 : Int).natAbs = 10 := rfl
  rw [fewDigits_iff, tooLong, Int.natAbs_pow, hten]
  exact Nat.lt_irrefl _

theorem written_of_fewDigits {z : Int} (h : FewDigits z) : written z = .ok (decimal z) := if_pos h

theorem written_of_not_fewDigits {z : Int} (h : ¬ FewDigits z) : written z = .error ⟨⟩ := if_neg h

theorem written_eq_ok_iff {z : Int} {t : Text} : written z = .ok t ↔ FewDigits z ∧ t = decimal z := by
  by_cases h : FewDigits z
  · rw [written_of_fewDigits h, and_iff_right h, Except.ok.injEq, eq_comm]
  · rw [written_of_not_fewDigits h]
    exact ⟨nofun, fun hd => absurd hd.1 h⟩

def digitByte (d : Nat) : UInt8 := UInt8.ofNat (CodePoint.ofDigit d).val

theorem ofDigit_val_lt {d : Nat} (h : d < 16) : (CodePoint.ofDigit d).val < 0x80 := by
  revert h
  revert d
  decide

theorem toNat_digitByte {d : Nat} (h : d < 16) : (digitByte d).toNat = (CodePoint.ofDigit d).val :=
  UInt8.toNat_ofNat_of_lt' (Nat.lt_trans (ofDigit_val_lt h) (by decide))

theorem toNat_digitByte_decimal {d : Nat} (h : d < 10) : (digitByte d).toNat = 0x30 + d := by
  have hv : ∀ d < 10, (CodePoint.ofDigit d).val = 0x30 + d := by decide
  rw [toNat_digitByte (by omega), hv d h]

theorem bytes_map_ofDigit {ds : List Nat} (h : ∀ d ∈ ds, d < 16) :
    Utf8.bytes (ds.map CodePoint.ofDigit) = ds.map digitByte := by
  induction ds with
  | nil => rfl
  | cons d ds ih =>
      rw [List.map_cons, Utf8.bytes_cons, CodePoint.utf8_ascii (ofDigit_val_lt (h d List.mem_cons_self)),
        ih fun e he => h e (List.mem_cons_of_mem d he)]
      rfl

theorem bytes_natural {base : Nat} (hb : 0 < base) (h : base ≤ 16) (n : Nat) :
    Utf8.bytes (natural base n) = (digits base n).map digitByte :=
  bytes_map_ofDigit fun _ hd => Nat.lt_of_lt_of_le (lt_of_mem_digits hb hd) h

theorem bytes_zeroPadded {base : Nat} (hb : 0 < base) (h : base ≤ 16) (width n : Nat) :
    Utf8.bytes (zeroPadded width (natural base n)) = (paddedDigits base width n).map digitByte := by
  rw [zeroPadded_natural]
  exact bytes_map_ofDigit fun _ hd => Nat.lt_of_lt_of_le (lt_of_mem_paddedDigits hb hd) h

def signBytes (negative : Bool) : Bytes := if negative then [0x2D] else []

theorem bytes_decimal (z : Int) :
    Utf8.bytes (decimal z) = signBytes (z < 0) ++ (digits 10 z.natAbs).map digitByte := by
  rw [decimal, Utf8.bytes_append, bytes_natural (by decide) (by decide), sign, signBytes]
  by_cases h : z < 0
  · simp only [h, if_true, decide_true]; rfl
  · simp [h]

theorem length_decimal (z : Int) :
    (decimal z).length = (digits 10 z.natAbs).length + if z < 0 then 1 else 0 := by
  rw [decimal, List.length_append, natural, List.length_map, sign, Nat.add_comm]
  split <;> rfl

end Numeral

namespace Literal

open Numeral

def ofInt (z : Int) : Literal := { negative := z < 0, whole := digits 10 z.natAbs }

@[simp] theorem isInteger_ofInt (z : Int) : (ofInt z).isInteger = true := rfl

@[simp] theorem integer_ofInt (z : Int) : (ofInt z).integer = z := by
  simp only [integer, ofInt, value_digits (Nat.le_of_ble_eq_true rfl : 2 ≤ 10)]
  by_cases h : z < 0
  · rw [if_pos (decide_eq_true h)]
    omega
  · rw [if_neg (by simpa using h)]
    omega

@[simp] theorem integerLength_ofInt (z : Int) :
    (ofInt z).integerLength = (decimal z).length := by
  rw [length_decimal]
  by_cases h : z < 0 <;> simp [integerLength, ofInt, h]

/-- An integer has no shorter literal than its decimal text. -/
theorem length_decimal_le {l : Literal} (h : ∀ d ∈ l.whole, d < 10) (hne : l.whole ≠ []) :
    (decimal l.integer).length ≤ l.integerLength := by
  have hd : (digits 10 l.integer.natAbs).length ≤ l.whole.length := by
    refine length_digits_le ?_ (List.length_pos_iff.2 hne)
    have := value_lt h
    simp only [integer]
    split <;> simpa using this
  have hs : (if l.integer < 0 then 1 else 0) ≤ if l.negative then 1 else 0 := by
    cases hn : l.negative with
    | true => simp only [if_true]; split <;> omega
    | false => simp [integer, hn]
  rw [length_decimal, integerLength]
  exact Nat.add_le_add hd hs

end Literal

end Keystroke
