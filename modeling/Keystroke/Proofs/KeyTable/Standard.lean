import Keystroke.KeyTable.Standard
import Keystroke.Proofs.KeyTable

namespace Keystroke.KeyTable

theorem nodup_standard : (builtin.codes ++ standardRows.map fun row => row.key.value).Nodup := by
  have hrows : (standardRows.map fun row => row.key.value).Nodup := by decide +kernel
  have hnew : ∀ code ∈ builtin.codes, code ∉ standardRows.map fun row => row.key.value := by
    decide +kernel
  refine List.nodup_append.2 ⟨builtin.distinct, hrows, ?_⟩
  rintro code hm _ hrow rfl
  exact hnew code hm hrow

theorem madeFrom_standard : MadeFrom standardRows standard := by
  obtain ⟨t, hbuild, ht⟩ := build_of_nodup nodup_standard
  rw [standard, hbuild]
  exact ht

theorem mem_standard {info : KeyInfo} :
    info ∈ standard.entries ↔
      (∃ code, (KeyCode.letters.contains code = true ∨ KeyCode.digits.contains code = true) ∧
        characterInfo code = info) ∨
      (∃ code, KeyCode.numpadDigits.contains code = true ∧ numpadInfo code = info) ∨
      ∃ row ∈ standardRows, row.info = info := madeFrom_standard.mem_entries

theorem notMem_builtin_of_mem {row : Row} (h : row ∈ standardRows) : row.key.value ∉ builtin.codes :=
  madeFrom_standard.notMem_builtin h

theorem find?_character {code : Int}
    (h : KeyCode.letters.contains code = true ∨ KeyCode.digits.contains code = true) :
    standard.find? code = some (characterInfo code) := madeFrom_standard.find?_character h

theorem find?_numpad {code : Int} (h : KeyCode.numpadDigits.contains code = true) :
    standard.find? code = some (numpadInfo code) := madeFrom_standard.find?_numpad h

theorem find?_row {row : Row} (h : row ∈ standardRows) :
    standard.find? row.key.value = some row.info := madeFrom_standard.find?_row h

theorem notMem_builtin_of_find? {code : Int} (h : standard.find? code = none) : code ∉ builtin.codes := by
  intro hm
  rcases mem_codes_builtin.1 hm with hc | hn
  · cases h.symm.trans (find?_character hc)
  · cases h.symm.trans (find?_numpad hn)

end Keystroke.KeyTable
