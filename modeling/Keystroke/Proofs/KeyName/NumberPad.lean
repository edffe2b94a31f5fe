import Keystroke.Proofs.KeyName
import Mathlib.Data.Set.Function

namespace Keystroke

def CodeRange.codes (r : CodeRange) : Set Int := {code | r.contains code = true}

theorem CodeRange.mem_codes {r : CodeRange} {code : Int} :
    code ∈ r.codes ↔ r.first ≤ code ∧ code < r.stop := contains_iff

def CodeRange.shifted (r : CodeRange) (offset : Int) : CodeRange := ⟨r.first - offset, r.stop - offset⟩

theorem CodeRange.bijOn_shifted (r : CodeRange) (offset : Int) :
    Set.BijOn (· - offset) r.codes (r.shifted offset).codes := by
  refine ⟨fun code h => ?_, fun code _ code' _ h => ?_, fun code h => ⟨code + offset, ?_, ?_⟩⟩
  · simp only [mem_codes, shifted] at h ⊢
    omega
  · exact (Int.sub_left_inj offset).1 h
  · simp only [mem_codes, shifted] at h ⊢
    omega
  · exact Int.add_sub_cancel code offset

namespace KeyCode

open KeyTable

theorem checkNumpad_eq_ok_iff {offset : Int} {range : CodeRange} :
    checkNumpad offset range = .ok () ↔ offset = numpadOffset ∧ range.stop = range.first + 10 := by
  have hdigits : digits.size = 10 := rfl
  have hsize : range.size = 10 ↔ range.stop = range.first + 10 := by
    rw [CodeRange.size]
    omega
  have hoffset : numpadOffset = 0x30 := rfl
  rw [checkNumpad, ← hsize, hdigits, hoffset]
  cases hf : (List.range 10).find? fun (d : Nat) => 0x60 + (d : Int) - offset != 0x30 + (d : Int) with
  | some d =>
      have hd := List.find?_some hf
      rw [bne_iff_ne] at hd
      refine iff_of_false (fun h => ?_) fun h => hd (by omega)
      cases h
  | none =>
      have hzero := List.find?_eq_none.1 hf 0 (by decide)
      rw [bne_iff_ne, Decidable.not_not] at hzero
      rw [and_iff_right (by omega)]
      dsimp only
      by_cases hs : range.size = 10
      · rw [if_neg (by omega), if_pos hs]
        exact iff_of_true rfl hs
      · refine iff_of_false (fun h => ?_) hs
        rw [if_neg hs] at h
        split at h <;> cases h

theorem bijOn_digits_iff {range : CodeRange} (h : range.stop = range.first + 10) :
    Set.BijOn (· - numpadOffset) range.codes digits.codes ↔ range.first = numpadDigits.first := by
  constructor
  · rintro ⟨hmaps, -, -⟩
    have hlow := hmaps (CodeRange.mem_codes.2 ⟨Int.le_refl _, by omega⟩ : range.first ∈ range.codes)
    have hhigh := hmaps (CodeRange.mem_codes.2 ⟨by omega, by omega⟩ : range.first + 9 ∈ range.codes)
    simp only [CodeRange.mem_codes, digits, numpadOffset, numpadDigits] at hlow hhigh ⊢
    omega
  · intro hfirst
    have hshifted : range.shifted numpadOffset = digits := by
      rw [CodeRange.shifted, h, hfirst]
      rfl
    exact hshifted ▸ range.bijOn_shifted numpadOffset

theorem eq_numpadDigits {range : CodeRange} (hfirst : range.first = numpadDigits.first)
    (hstop : range.stop = range.first + 10) : range = numpadDigits := by
  obtain ⟨first, stop⟩ := range
  dsimp only at hfirst hstop
  rw [hstop, hfirst]
  rfl

theorem find?_numpad_of_build {rows : List Row} {t : KeyTable} (ht : build rows = .ok t) {code : Int}
    (h : numpadDigits.contains code = true) :
    t.find? code = some ⟨code, some numpadId,
      numpadLabel ++ " " ++ Numeral.decimal (code - numpadDigits.first), false⟩ := by
  rcases build_cases rows with ⟨-, t', hbuild, hmade⟩ | ⟨_, _, _, -, -, -, -, hbuild⟩
  · cases hbuild.symm.trans ht
    rw [hmade.find?_numpad h, numpadInfo, character_sub_offset h]
  · cases hbuild.symm.trans ht

/-- The check passes just for the offset of the number pad and a range of ten codes. Less the offset these are the
codes of the digits, one to one, if and only if the first is that of the first digit of the number pad; then every
code of the range is named after a digit, and so it is labelled in every table. -/
theorem checkNumpad_aligned (offset : Int) (range : CodeRange) :
    (checkNumpad offset range = .ok () ↔ offset = numpadOffset ∧ range.stop = range.first + 10) ∧
    (checkNumpad offset range = .ok () →
      (Set.BijOn (· - offset) range.codes digits.codes ↔ range.first = numpadDigits.first) ∧
      (range.first = numpadDigits.first → ∀ code ∈ range.codes,
        (∀ labels, text code labels =
            labels.resolve numpadId numpadLabel ++ " " ++ text (code - offset) labels ∧
          text (code - offset) labels = Numeral.decimal (code - range.first)) ∧
        ∀ rows t, build rows = .ok t → t.find? code = some ⟨code, some numpadId,
          numpadLabel ++ " " ++ Numeral.decimal (code - range.first), false⟩)) := by
  refine ⟨checkNumpad_eq_ok_iff, fun h => ?_⟩
  obtain ⟨rfl, hstop⟩ := checkNumpad_eq_ok_iff.1 h
  refine ⟨bijOn_digits_iff hstop, fun hfirst => ?_⟩
  rw [eq_numpadDigits hfirst hstop]
  intro code hcode
  exact ⟨fun labels => ⟨text_numpad hcode labels, text_sub_offset hcode labels⟩,
    fun rows t ht => find?_numpad_of_build ht hcode⟩

theorem checkNumpad_aligned_seven :
    checkNumpad 0x30 ⟨0x60, 0x6A⟩ = .ok () ∧
      Set.BijOn (· - 0x30) (CodeRange.codes ⟨0x60, 0x6A⟩) digits.codes ∧
      text 0x67 .empty = "NumPad 7" := by
  have hcheck : checkNumpad 0x30 ⟨0x60, 0x6A⟩ = .ok () := by decide
  obtain ⟨hbij, hnamed⟩ := (checkNumpad_aligned 0x30 ⟨0x60, 0x6A⟩).2 hcheck
  obtain ⟨hname, hdigit⟩ := (hnamed rfl 0x67 (CodeRange.mem_codes.2 (by decide))).1 .empty
  exact ⟨hcheck, hbij.2 rfl, by rw [hname, hdigit]; rfl⟩

/-- The check does not look at where the range begins: one code earlier it has the slash among its digits. -/
theorem checkNumpad_shiftedRange :
    checkNumpad 0x30 ⟨0x5F, 0x69⟩ = .ok () ∧
      ¬ Set.BijOn (· - 0x30) (CodeRange.codes ⟨0x5F, 0x69⟩) digits.codes ∧
      text (0x5F - 0x30) .empty = "Slash" ∧ character (0x5F - 0x30) = "/" := by
  refine ⟨by decide, fun h => ?_, by decide +kernel, by decide⟩
  have hfirst := (bijOn_digits_iff rfl).1 h
  exact absurd hfirst (by decide)

end KeyCode

end Keystroke
