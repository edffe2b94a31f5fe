import Keystroke.Numeral.Argument
import Keystroke.Proofs.Digits

namespace Keystroke

theorem Text.trimmed_of_forall_not_isBlank {t : Text} (h : ∀ c ∈ t, c.isBlank = false) : t.trimmed = t := by
  have hdrop {s : Text} (hs : ∀ c ∈ s, c.isBlank = false) : s.dropWhile CodePoint.isBlank = s := by
    cases s with
    | nil => rfl
    | cons c s => rw [List.dropWhile_cons, if_neg (by simp [hs c List.mem_cons_self])]
  have hback : ∀ c ∈ t.reverse, c.isBlank = false := fun c hc => h c (List.mem_reverse.1 hc)
  rw [trimmed, hdrop h, hdrop hback, List.reverse_reverse]

namespace Argument

open Numeral

theorem ofDigit_ne {d : Nat} (h : d < 16) :
    CodePoint.ofDigit d ≠ CodePoint.ofChar '_' ∧ CodePoint.ofDigit d ≠ CodePoint.ofChar '-' ∧
      CodePoint.ofDigit d ≠ CodePoint.ofChar '+' := by
  revert h
  revert d
  decide

theorem digitRun?_map_ofDigit {ds : List Nat} (h : ∀ d ∈ ds, d < 16) (hne : ds ≠ []) :
    digitRun? 16 (ds.map CodePoint.ofDigit) = some ds := by
  induction ds with
  | nil => exact absurd rfl hne
  | cons d ds ih =>
      obtain ⟨hd, hds⟩ := List.forall_mem_cons.1 h
      cases ds with
      | nil => simp [digitRun?, digit?_ofDigit hd]
      | cons e ds =>
          have hrest := ih hds (List.cons_ne_nil e ds)
          rw [List.map_cons] at hrest
          rw [List.map_cons, List.map_cons, digitRun?]
          simp [digit?_ofDigit hd, (ofDigit_ne (hds e List.mem_cons_self)).1, hrest]

theorem exists_natural_cons (n : Nat) :
    ∃ d t, d < 16 ∧ natural 16 n = CodePoint.ofDigit d :: t ∧ (d = 0 → n = 0 ∧ t = []) := by
  obtain ⟨d, ds, hds⟩ := List.exists_cons_of_ne_nil (digits_ne_nil 16 n)
  refine ⟨d, ds.map CodePoint.ofDigit, lt_of_mem_digits (by decide) (hds ▸ List.mem_cons_self),
    by rw [natural, hds, List.map_cons], ?_⟩
  rintro rfl
  have hzero : digits 16 n = [0] := digits_of_head?_eq_zero (by decide) (by rw [hds, List.head?_cons])
  have hvalue := value_digits (Nat.le_of_ble_eq_true rfl : 2 ≤ 16) n
  rw [hzero] at hvalue hds
  rw [(List.cons.inj hds).2.symm]
  exact ⟨hvalue.symm, rfl⟩

theorem marked?_map_ofDigit {ds : List Nat} (h : ∀ d ∈ ds, d < 16) (hne : ds ≠ []) :
    marked? 16 (ds.map CodePoint.ofDigit) = some (value 16 ds) := by
  have hrun := digitRun?_map_ofDigit h hne
  cases ds with
  | nil => exact absurd rfl hne
  | cons d ds =>
      rw [List.map_cons] at hrun ⊢
      rw [marked?, if_neg (ofDigit_ne (h d List.mem_cons_self)).1, hrun, Option.map_some]

theorem marked?_natural (n : Nat) : marked? 16 (natural 16 n) = some n := by
  rw [natural, marked?_map_ofDigit (fun _ hd => lt_of_mem_digits (by decide) hd) (digits_ne_nil 16 n),
    value_digits (by decide)]

theorem signed_sign {c : CodePoint} (hminus : c ≠ '-') (hplus : c ≠ '+') (z : Int) (t : Text) :
    signed (sign z ++ c :: t) = (decide (z < 0), c :: t) := by
  rw [sign]
  by_cases hz : z < 0
  · rw [if_pos hz, decide_eq_true hz]
    rfl
  · rw [if_neg hz, List.nil_append, signed, if_neg hminus, if_neg hplus, decide_eq_false hz]

theorem signed_hex (z : Int) : signed (hex z) = (decide (z < 0), natural 16 z.natAbs) := by
  obtain ⟨d, t, hd, ht, -⟩ := exists_natural_cons z.natAbs
  rw [hex, ht]
  exact signed_sign (ofDigit_ne hd).2.1 (ofDigit_ne hd).2.2 z t

theorem ite_neg_natAbs (z : Int) :
    (if decide (z < 0) = true then -Int.ofNat z.natAbs else Int.ofNat z.natAbs) = z := by
  rw [Int.ofNat_eq_natCast]
  simp only [decide_eq_true_eq]
  split <;> omega

def hexadecimal? (t : Text) : Option Int := do
  let (negative, body) := signed t
  let n : Int := Int.ofNat (← marked? 16 body)
  return if negative then -n else n

theorem hexadecimal?_hex (z : Int) : hexadecimal? (hex z) = some z := by
  simp only [hexadecimal?, signed_hex, marked?_natural, Option.bind_eq_bind, Option.bind_some]
  exact congrArg some (ite_neg_natAbs z)

theorem ofDigit_decimalDigit? {c : CodePoint} (h : c.val < 0x80) :
    (match c.decimalDigit? with
      | some d => .ofDigit d
      | none => c) = c := by
  have hall : ∀ n : Fin 0x80, ∀ d ∈ CodePoint.decimalDigit? ⟨n, Nat.lt_trans n.2 (by decide)⟩,
      CodePoint.ofDigit d = ⟨n, Nat.lt_trans n.2 (by decide)⟩ := by decide +kernel
  split
  · exact hall ⟨c.val, h⟩ _ ‹_›
  · rfl

theorem asciiDigits_of_ascii {t : Text} (h : ∀ c ∈ t, c.val < 0x80) : asciiDigits t = t := by
  conv => rhs; rw [← List.map_id t]
  exact List.map_congr_left fun c hc => ofDigit_decimalDigit? (h c hc)

theorem magnitude?_marked (t : Text) : magnitude? ("0x" ++ t) = marked? 16 t := rfl

end Argument

namespace Numeral

/-- A numeral of an integer: in lower case, with a minus for a negative number and no zero in front of digits, and
read back as the integer. -/
structure HexText (z : Int) (t : Text) : Prop where
  alphabet : ∀ c ∈ t, c ∈ (("-0123456789abcdef" : Text))
  unpadded : ("0" : Text) <+: t ∨ ("-0" : Text) <+: t → t = "0"
  reads : Argument.hexadecimal? t = some z

theorem mem_alphabet_of_mem_hex {z : Int} {c : CodePoint} (h : c ∈ hex z) :
    c ∈ (("-0123456789abcdef" : Text)) := by
  have hdigit : ∀ d < 16, CodePoint.ofDigit d ∈ (("-0123456789abcdef" : Text)) := by decide
  have hminus : ∀ c ∈ (("-" : Text)), c ∈ (("-0123456789abcdef" : Text)) := by decide
  rcases List.mem_append.1 h with h | h
  · rw [sign] at h
    split at h
    · exact hminus c h
    · cases h
  · obtain ⟨d, hd, rfl⟩ := List.mem_map.1 h
    exact hdigit d (lt_of_mem_digits (by decide) hd)

theorem eq_zero_of_prefix_hex {z : Int} (h : ("0" : Text) <+: hex z ∨ ("-0" : Text) <+: hex z) :
    hex z = "0" := by
  have hzero : ∀ d < 16, CodePoint.ofDigit d = CodePoint.ofChar '0' → d = 0 := by decide
  have hdigit : ∀ d < 16, CodePoint.ofChar '-' ≠ CodePoint.ofDigit d := by decide
  have hminus (t : Text) : ("-" : Text) ++ t = CodePoint.ofChar '-' :: t := rfl
  obtain ⟨d, t, hd, ht, hlead⟩ := Argument.exists_natural_cons z.natAbs
  rw [hex, sign, ht] at h ⊢
  by_cases hz : z < 0
  · rw [if_pos hz, hminus] at h
    rcases h with ⟨r, hr⟩ | ⟨r, hr⟩
    · exact absurd (List.cons.inj hr).1 (by decide)
    · have hd0 := hzero d hd (List.cons.inj (List.cons.inj hr).2).1.symm
      have := (hlead hd0).1
      omega
  · rw [if_neg hz, List.nil_append] at h ⊢
    rcases h with ⟨r, hr⟩ | ⟨r, hr⟩
    · have hd0 := hzero d hd (List.cons.inj hr).1.symm
      rw [(hlead hd0).2, hd0]
      rfl
    · exact absurd (List.cons.inj hr).1 (hdigit d hd)

theorem hexText_hex (z : Int) : HexText z (hex z) where
  alphabet _ := mem_alphabet_of_mem_hex
  unpadded := eq_zero_of_prefix_hex
  reads := Argument.hexadecimal?_hex z

theorem hexColumn_eq (z : Int) :
    hexColumn z = sign z ++ ("0x" ++
      (paddedDigits 16 (6 - (sign z ++ ("0x" : Text)).length) z.natAbs).map CodePoint.ofDigit) := by
  rw [hexColumn, zeroPadded_natural, List.append_assoc]

theorem length_hexColumn (z : Int) : (hexColumn z).length = max 6 (markedHex z).length := by
  simp only [hexColumn, zeroPadded, markedHex, List.length_append, List.length_replicate]
  omega

theorem hexColumn_eq_replicate (z : Int) :
    hexColumn z = sign z ++ "0x" ++
      List.replicate (6 - (markedHex z).length) (CodePoint.ofChar '0') ++ natural 16 z.natAbs := by
  rw [hexColumn, zeroPadded, markedHex, ← List.append_assoc]
  simp only [List.length_append, Nat.sub_sub]

theorem mem_alphabet_of_mem_hexColumn {z : Int} {c : CodePoint} (h : c ∈ hexColumn z) :
    c ∈ (("x-0123456789abcdef" : Text)) := by
  have hmark : ∀ c ∈ (("0x" : Text)), c ∈ (("x-0123456789abcdef" : Text)) := by decide
  have hzeros {c : CodePoint} {n : Nat} (hc : c ∈ List.replicate n (CodePoint.ofChar '0')) :
      c ∈ (("x-0123456789abcdef" : Text)) := List.eq_of_mem_replicate hc ▸ by decide
  rw [hexColumn_eq_replicate] at h
  rcases List.mem_append.1 h with h | h
  · rcases List.mem_append.1 h with h | h
    · rcases List.mem_append.1 h with h | h
      · exact List.mem_cons_of_mem _ (mem_alphabet_of_mem_hex (List.mem_append_left _ h))
      · exact hmark c h
    · exact hzeros h
  · exact List.mem_cons_of_mem _ (mem_alphabet_of_mem_hex (List.mem_append_right _ h))

/-- The column of an integer is read as the integer, whatever its size. -/
theorem integer?_hexColumn (z : Int) : Argument.integer? (hexColumn z) = some z := by
  have halphabet : ∀ c ∈ (("x-0123456789abcdef" : Text)), c.val < 0x80 ∧ c.isBlank = false := by decide
  have hplain (c : CodePoint) (hc : c ∈ hexColumn z) := halphabet c (mem_alphabet_of_mem_hexColumn hc)
  have htrimmed : (Argument.asciiDigits (hexColumn z)).trimmed = hexColumn z := by
    rw [Argument.asciiDigits_of_ascii fun c hc => (hplain c hc).1,
      Text.trimmed_of_forall_not_isBlank fun c hc => (hplain c hc).2]
  have hdigits (width : Nat) : Argument.marked? 16
      ((paddedDigits 16 width z.natAbs).map CodePoint.ofDigit) = some z.natAbs := by
    rw [Argument.marked?_map_ofDigit (fun _ hd => lt_of_mem_paddedDigits (by decide) hd)
      (by simp [paddedDigits, digits_ne_nil]), value_paddedDigits (by decide)]
  have hsigned (t : Text) : Argument.signed (sign z ++ ("0x" ++ t)) = (decide (z < 0), "0x" ++ t) :=
    Argument.signed_sign (by decide) (by decide) z _
  rw [Argument.integer?, htrimmed, hexColumn_eq, hsigned]
  simp only [Argument.magnitude?_marked, hdigits, Option.bind_eq_bind, Option.bind_some]
  exact congrArg some (Argument.ite_neg_natAbs z)

theorem hexColumn_inj {z w : Int} : hexColumn z = hexColumn w ↔ z = w := by
  refine ⟨fun h => ?_, fun h => h ▸ rfl⟩
  have hread := congrArg Argument.integer? h
  rwa [integer?_hexColumn, integer?_hexColumn, Option.some.injEq] at hread

end Numeral

end Keystroke
