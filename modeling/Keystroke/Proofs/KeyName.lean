import Keystroke.KeyName
import Keystroke.Proofs.KeyTable.Standard
import Keystroke.Settings

namespace Keystroke.KeyCode

open KeyTable

/-- A code has a character, is a digit of the number pad, has a row in the standard table, or is no key's. -/
inductive Origin : Int → Prop
  | character {code} (h : letters.contains code = true ∨ digits.contains code = true) : Origin code
  | numpad {code} (h : numpadDigits.contains code = true) : Origin code
  | row {row : Row} (h : row ∈ standardRows) : Origin row.key.value
  | unknown {code} (h : standard.find? code = none) : Origin code

theorem origin (code : Int) : Origin code := by
  cases hf : standard.find? code with
  | none => exact .unknown hf
  | some info =>
      obtain ⟨hm, rfl⟩ := find?_eq_some_iff.1 hf
      rcases mem_standard.1 hm with ⟨code, h, rfl⟩ | ⟨code, h, rfl⟩ | ⟨row, h, rfl⟩
      · exact .character h
      · exact .numpad h
      · exact .row h

/-- The label of a code that can be overridden: its identifier, the label if there is no override, and the text
behind it. -/
structure Slot where
  id : Text
  byDefault : Text
  behind : Text
deriving DecidableEq

def slot? (code : Int) : Option Slot :=
  if letters.contains code || digits.contains code then none
  else if numpadDigits.contains code then
    some ⟨numpadId, numpadLabel, " " ++ Numeral.decimal (code - numpadDigits.first)⟩
  else
    match standardRows.find? fun row => row.key.value == code with
    | some row => some ⟨row.labelId, row.label, []⟩
    | none => some ⟨unknownId, unknownLabel, " keyCode: 0x" ++ Numeral.hex code⟩

theorem slot?_character {code : Int}
    (h : letters.contains code = true ∨ digits.contains code = true) : slot? code = none := by
  rw [slot?, if_pos (by simpa using h)]

theorem slot?_numpad {code : Int} (h : numpadDigits.contains code = true) :
    slot? code = some ⟨numpadId, numpadLabel, " " ++ Numeral.decimal (code - numpadDigits.first)⟩ := by
  have hcharacter : ¬ (letters.contains code || digits.contains code) = true := by
    rw [Bool.or_eq_true]
    simp only [numpadDigits, letters, digits, CodeRange.contains_iff] at h ⊢
    omega
  rw [slot?, if_neg hcharacter, if_pos h]

theorem slot?_other {code : Int} (h : code ∉ builtin.codes) :
    slot? code =
      match standardRows.find? fun row => row.key.value == code with
      | some row => some ⟨row.labelId, row.label, []⟩
      | none => some ⟨unknownId, unknownLabel, " keyCode: 0x" ++ Numeral.hex code⟩ := by
  rw [mem_codes_builtin, IsBuiltin, not_or] at h
  rw [slot?, if_neg (by simpa using h.1), if_neg h.2]

theorem slot?_row {row : Row} (h : row ∈ standardRows) :
    slot? row.key.value = some ⟨row.labelId, row.label, []⟩ := by
  rw [slot?_other (notMem_builtin_of_mem h)]
  cases hrow : standardRows.find? fun other => other.key.value == row.key.value with
  | none => exact absurd (beq_self_eq_true _) (List.find?_eq_none.1 hrow row h)
  | some other =>
      have hkey : other.key.value = row.key.value := by simpa using List.find?_some hrow
      have hother : standard.find? row.key.value = some other.info :=
        hkey ▸ find?_row (List.mem_of_find?_eq_some hrow)
      have hinfo : other.info = row.info := Option.some.inj (hother.symm.trans (find?_row h))
      have hid : other.labelId = row.labelId := Option.some.inj (congrArg KeyInfo.labelId hinfo)
      have hlabel : other.label = row.label := congrArg KeyInfo.label hinfo
      dsimp only
      rw [hid, hlabel]

theorem slot?_unknown {code : Int} (h : standard.find? code = none) :
    slot? code = some ⟨unknownId, unknownLabel, " keyCode: 0x" ++ Numeral.hex code⟩ := by
  rw [slot?_other (notMem_builtin_of_find? h)]
  cases hrow : standardRows.find? fun row => row.key.value == code with
  | none => rfl
  | some row =>
      have hkey : row.key.value = code := by simpa using List.find?_some hrow
      have hfound := find?_row (List.mem_of_find?_eq_some hrow)
      rw [hkey, h] at hfound
      cases hfound

theorem text_eq_rowText {code : Int} (h : ¬ numpadDigits.contains code = true) (labels : Labels) :
    text code labels = rowText code labels := by
  rw [text, if_neg h]

theorem not_numpad {code : Int} (h : code ∉ builtin.codes) : ¬ numpadDigits.contains code = true :=
  fun hn => h (mem_codes_builtin.2 (.inr hn))

theorem text_character {code : Int}
    (h : letters.contains code = true ∨ digits.contains code = true) (labels : Labels) :
    text code labels = character code := by
  have hnumpad : ¬ numpadDigits.contains code = true := by
    simp only [numpadDigits, letters, digits, CodeRange.contains_iff] at h ⊢
    omega
  rw [text_eq_rowText hnumpad, rowText, find?_character h]
  rfl

theorem text_numpad {code : Int} (h : numpadDigits.contains code = true) (labels : Labels) :
    text code labels =
      labels.resolve numpadId numpadLabel ++ " " ++ text (code - numpadOffset) labels := by
  have hnumpad : ¬ numpadDigits.contains (code - numpadOffset) = true := by
    simp only [numpadDigits, numpadOffset, CodeRange.contains_iff] at h ⊢
    omega
  rw [text_eq_rowText hnumpad, text, if_pos h]

theorem character_sub_offset {code : Int} (h : numpadDigits.contains code = true) :
    character (code - numpadOffset) = Numeral.decimal (code - numpadDigits.first) := by
  have hall : ∀ code ∈ numpadDigits.toList,
      character (code - numpadOffset) = Numeral.decimal (code - numpadDigits.first) := by decide
  exact hall code (CodeRange.mem_toList.2 h)

theorem text_sub_offset {code : Int} (h : numpadDigits.contains code = true) (labels : Labels) :
    text (code - numpadOffset) labels = Numeral.decimal (code - numpadDigits.first) := by
  rw [text_character (.inr (contains_sub_offset h)), character_sub_offset h]

theorem text_row {row : Row} (h : row ∈ standardRows) (labels : Labels) :
    text row.key.value labels = labels.resolve row.labelId row.label := by
  rw [text_eq_rowText (not_numpad (notMem_builtin_of_mem h)), rowText, find?_row h]
  rfl

theorem text_unknown {code : Int} (h : standard.find? code = none) (labels : Labels) :
    text code labels =
      labels.resolve unknownId unknownLabel ++ (" keyCode: 0x" ++ Numeral.hex code) := by
  rw [text_eq_rowText (not_numpad (notMem_builtin_of_find? h)), rowText, h, entryText, List.append_assoc]

theorem text_eq (code : Int) (labels : Labels) :
    text code labels =
      match slot? code with
      | some slot => labels.resolve slot.id slot.byDefault ++ slot.behind
      | none => character code := by
  cases origin code with
  | character h => rw [slot?_character h, text_character h]
  | numpad h => rw [slot?_numpad h, text_numpad h, text_sub_offset h, List.append_assoc]
  | row h =>
      rw [slot?_row h, text_row h]
      exact (List.append_nil _).symm
  | unknown h => rw [slot?_unknown h, text_unknown h]

/-- The name of a code depends on the label of its own slot alone. -/
theorem text_congr {code : Int} {labels labels' : Labels}
    (h : ∀ slot ∈ slot? code,
      labels.resolve slot.id slot.byDefault = labels'.resolve slot.id slot.byDefault) :
    text code labels = text code labels' := by
  rw [text_eq, text_eq]
  cases hs : slot? code with
  | none => rfl
  | some slot =>
      dsimp only
      rw [h slot hs]

theorem resolve_empty (id byDefault : Text) : Labels.empty.resolve id byDefault = byDefault := rfl

theorem id_slot? {code : Int} {info : KeyInfo} (h : standard.find? code = some info) :
    (slot? code).map Slot.id = info.labelId := by
  cases origin code with
  | character hc =>
      rw [slot?_character hc]
      exact congrArg KeyInfo.labelId (Option.some.inj ((find?_character hc).symm.trans h))
  | numpad hn =>
      rw [slot?_numpad hn]
      exact congrArg KeyInfo.labelId (Option.some.inj ((find?_numpad hn).symm.trans h))
  | row hr =>
      rw [slot?_row hr]
      exact congrArg KeyInfo.labelId (Option.some.inj ((find?_row hr).symm.trans h))
  | unknown hu => cases hu.symm.trans h

theorem text_empty_of_find? {code : Int} {info : KeyInfo} (h : standard.find? code = some info) :
    text code .empty = info.label := by
  cases origin code with
  | character hc =>
      rw [text_character hc]
      exact congrArg KeyInfo.label (Option.some.inj ((find?_character hc).symm.trans h))
  | numpad hn =>
      rw [text_numpad hn, text_character (.inr (contains_sub_offset hn))]
      exact congrArg KeyInfo.label (Option.some.inj ((find?_numpad hn).symm.trans h))
  | row hr =>
      rw [text_row hr]
      exact congrArg KeyInfo.label (Option.some.inj ((find?_row hr).symm.trans h))
  | unknown hu => cases hu.symm.trans h

theorem resolve_sample {code : Int} {slot : Slot} (h : slot? code = some slot) :
    Settings.sample.labels.resolve slot.id slot.byDefault = slot.byDefault := by
  have hpad : Settings.sample.labels.resolve numpadId numpadLabel = numpadLabel := by decide
  have hunknown : Settings.sample.labels.resolve unknownId unknownLabel = unknownLabel := by decide
  have hrows : ∀ row ∈ standardRows, Settings.sample.labels.find? row.labelId = none := by
    decide +kernel
  cases origin code with
  | character hc => cases (slot?_character hc).symm.trans h
  | numpad hn =>
      cases (slot?_numpad hn).symm.trans h
      exact hpad
  | row hr =>
      cases (slot?_row hr).symm.trans h
      rw [Labels.resolve, hrows _ hr]
      rfl
  | unknown hu =>
      cases (slot?_unknown hu).symm.trans h
      exact hunknown

/-- An override reaches the codes in whose slot it is, and no others. Letters and digits have no slot, also where
they name a digit of the number pad; without overrides, or with the default labels as overrides, every code of the
standard table has the name that the table holds. -/
theorem text_overridden (code : Int) :
    (∀ info, standard.find? code = some info → (slot? code).map Slot.id = info.labelId) ∧
    (standard.find? code = none →
      slot? code = some ⟨unknownId, unknownLabel, " keyCode: 0x" ++ Numeral.hex code⟩) ∧
    (∀ labels labels' : Labels,
      (∀ slot ∈ slot? code, labels.find? slot.id = labels'.find? slot.id) →
        text code labels = text code labels') ∧
    (∀ (labels : Labels) (slot : Slot) (label : Text), slot? code = some slot →
      labels.find? slot.id = some label → text code labels = label ++ slot.behind) ∧
    (letters.contains code = true ∨ digits.contains code = true →
      slot? code = none ∧ ∀ labels, text code labels = character code) ∧
    (numpadDigits.contains code = true → ∀ labels,
      text code labels =
        labels.resolve numpadId numpadLabel ++ " " ++ text (code - numpadOffset) labels ∧
      text (code - numpadOffset) labels = Numeral.decimal (code - numpadDigits.first)) ∧
    (∀ (labels : Labels) (info : KeyInfo), standard.find? code = some info →
      (∀ slot ∈ slot? code, labels.find? slot.id = none) → text code labels = info.label) ∧
    (∀ labels : Labels,
      (∀ slot ∈ slot? code, ∀ label ∈ labels.find? slot.id, label = slot.byDefault) →
        text code labels = text code .empty) ∧
    text code Settings.sample.labels = text code .empty := by
  refine ⟨fun info => id_slot?, slot?_unknown, ?_, ?_, ?_, ?_, ?_, ?_, ?_⟩
  · intro labels labels' h
    refine text_congr fun slot hs => ?_
    rw [Labels.resolve, Labels.resolve, h slot hs]
  · intro labels slot label hs hl
    rw [text_eq, hs]
    dsimp only
    rw [Labels.resolve, hl]
    rfl
  · exact fun h => ⟨slot?_character h, text_character h⟩
  · exact fun h labels => ⟨text_numpad h labels, text_sub_offset h labels⟩
  · intro labels info hf h
    rw [← text_empty_of_find? hf]
    refine text_congr fun slot hs => ?_
    rw [resolve_empty, Labels.resolve, h slot hs]
    rfl
  · intro labels h
    refine text_congr fun slot hs => ?_
    rw [resolve_empty, Labels.resolve]
    cases hl : labels.find? slot.id with
    | none => rfl
    | some label => exact h slot hs label hl
  · exact text_congr fun slot hs => (resolve_sample hs).trans (resolve_empty ..).symm

def padLabels : Labels := .ofList [("7", "seven"), ("numpad", "Pad"), ("up", "↑")]

theorem text_overridden_pad :
    slot? 0x67 = some ⟨"numpad", "NumPad", " 7"⟩ ∧ padLabels.find? "numpad" = some "Pad" ∧
      text 0x67 padLabels = "Pad 7" ∧ text 0x37 padLabels = "7" := by
  have hslot : slot? 0x67 = some ⟨"numpad", "NumPad", " 7"⟩ := by decide
  have hlabel : padLabels.find? "numpad" = some "Pad" := by decide
  have hdigit : letters.contains 0x37 = true ∨ digits.contains 0x37 = true := .inr rfl
  obtain ⟨-, -, -, hbound, -⟩ := text_overridden 0x67
  obtain ⟨-, -, -, -, hcharacter, -⟩ := text_overridden 0x37
  exact ⟨hslot, hlabel, hbound padLabels _ _ hslot hlabel, (hcharacter hdigit).2 padLabels⟩

end Keystroke.KeyCode
