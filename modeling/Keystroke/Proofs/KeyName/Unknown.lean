import Keystroke.KeyCode.Names
import Keystroke.Proofs.Hexadecimal
import Keystroke.Proofs.KeyName

namespace Keystroke.KeyCode

open KeyTable

def IsNamed (code : Int) : Prop := code ∈ catalogue.members.map Prod.snd

instance (code : Int) : Decidable (IsNamed code) := inferInstanceAs (Decidable (_ ∈ _))

theorem codes_standard : standard.codes = builtin.codes ++ standardRows.map fun row => row.key.value :=
  codes_of_entries madeFrom_standard

theorem mem_codes_standard {code : Int} : code ∈ standard.codes ↔ IsNamed code := by
  have hnamed : ∀ code ∈ catalogue.members.map Prod.snd,
      code ∈ builtin.codes ++ standardRows.map fun row => row.key.value := by decide +kernel
  have hheld : ∀ code ∈ builtin.codes ++ standardRows.map fun row => row.key.value,
      code ∈ catalogue.members.map Prod.snd := by decide +kernel
  rw [codes_standard]
  exact ⟨hheld code, hnamed code⟩

theorem find?_eq_none_iff_not_isNamed {code : Int} : standard.find? code = none ↔ ¬ IsNamed code := by
  rw [find?_eq_none_iff, mem_codes_standard]

def unknownStart : Text := "Unknown keyCode: 0x"

theorem not_unknownStart_prefix_label {info : KeyInfo} (h : info ∈ standard.entries) :
    ¬ unknownStart <+: info.label := by
  have hlabels : ∀ info ∈ builtinEntries ++ standardRows.map Row.info, ¬ unknownStart <+: info.label := by
    decide +kernel
  rw [madeFrom_standard] at h
  exact hlabels info h

theorem text_empty_unknown {code : Int} (h : ¬ IsNamed code) :
    text code .empty = unknownStart ++ Numeral.hex code := by
  rw [text_unknown (find?_eq_none_iff_not_isNamed.2 h), resolve_empty]
  rfl

theorem not_unknownStart_prefix_text {code : Int} (h : IsNamed code) :
    ¬ unknownStart <+: text code .empty := by
  cases hf : standard.find? code with
  | none => exact absurd h (find?_eq_none_iff_not_isNamed.1 hf)
  | some info =>
      rw [text_empty_of_find? hf]
      exact not_unknownStart_prefix_label (find?_eq_some_iff.1 hf).1

theorem text_unknown_inj {code code' : Int} (h : ¬ IsNamed code) (h' : ¬ IsNamed code')
    {labels : Labels} (he : text code labels = text code' labels) : code = code' := by
  rw [text_unknown (find?_eq_none_iff_not_isNamed.2 h),
    text_unknown (find?_eq_none_iff_not_isNamed.2 h')] at he
  exact Numeral.hex_inj (List.append_cancel_left (List.append_cancel_left he))

/-- The codes that are no virtual key's are those whose name without overrides ends in their hexadecimal numeral,
from which the code is read back. Under all overrides no two of them have one name, and without overrides none has
the name of a key. -/
theorem text_tellsUnknown (code : Int) :
    (¬ IsNamed code ↔ text code .empty = "Unknown keyCode: 0x" ++ Numeral.hex code) ∧
    Numeral.HexText code (Numeral.hex code) ∧
    (¬ IsNamed code → ∀ code', code' ≠ code →
      (¬ IsNamed code' → ∀ labels, text code labels ≠ text code' labels) ∧
      (IsNamed code' → text code .empty ≠ text code' .empty)) := by
  refine ⟨⟨text_empty_unknown, ?_⟩, Numeral.hexText_hex code, ?_⟩
  · intro he hnamed
    exact not_unknownStart_prefix_text hnamed ⟨Numeral.hex code, he.symm⟩
  · intro h code' hne
    constructor
    · exact fun h' labels he => hne (text_unknown_inj h h' he).symm
    · intro h' he
      exact not_unknownStart_prefix_text h' ⟨Numeral.hex code, (text_empty_unknown h).symm.trans he⟩

def strangeLabels : Labels := .ofList [("unknown", "0x-")]

theorem text_tellsUnknown_negative :
    ¬ IsNamed (-5) ∧ text (-5) .empty = "Unknown keyCode: 0x-5" ∧ ¬ IsNamed 0x6C ∧
      text (-5) strangeLabels ≠ text 0x6C strangeLabels ∧ IsNamed 3 ∧
      text (-5) .empty ≠ text 3 .empty := by
  have hnegative : ¬ IsNamed (-5) := by decide +kernel
  have hgap : ¬ IsNamed 0x6C := by decide +kernel
  have hkey : IsNamed 3 := by decide +kernel
  obtain ⟨hiff, -, htells⟩ := text_tellsUnknown (-5)
  exact ⟨hnegative, hiff.1 hnegative, hgap, (htells hnegative 0x6C (by decide)).1 hgap strangeLabels, hkey,
    (htells hnegative 3 (by decide)).2 hkey⟩

end Keystroke.KeyCode
