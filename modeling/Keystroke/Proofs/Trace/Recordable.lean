import Keystroke.Proofs.Digits
import Keystroke.Trace.Printer
import Keystroke.Trace.Reader

namespace Keystroke.Event

/-- An event that has a line in a trace. -/
structure Encodable (e : Event) : Prop where
  char : e.char.length = 1
  source : ∀ t ∈ e.source, t.NoSurrogate
  digits : ∀ z ∈ [e.kind, e.time, e.modifiers, e.rawCode, e.keyCode, e.location], Numeral.FewDigits z

def Short (z : Int) : Prop := (Numeral.decimal z).length ≤ 4300

/-- An event that is the same after it has been written and read. -/
structure Recordable (e : Event) : Prop where
  char : e.char.length = 1
  source : ∀ t ∈ e.source, t.NoSurrogate
  kind : e.kind = 2400 ∨ e.kind = 2401 ∨ e.kind = 2402
  time : Short e.time
  modifiers : Short e.modifiers
  rawCode : Short e.rawCode
  keyCode : Short e.keyCode
  location : Short e.location
  typed : e.kind = 2400 → e.keyCode = 0 ∧ e.char ≠ noChar

instance (z : Int) : Decidable (Short z) := inferInstanceAs (Decidable (_ ≤ _))

instance (e : Event) : Decidable e.Encodable :=
  decidable_of_iff
    (e.char.length = 1 ∧ (∀ t ∈ e.source, t.NoSurrogate) ∧
      ∀ z ∈ [e.kind, e.time, e.modifiers, e.rawCode, e.keyCode, e.location], Numeral.FewDigits z)
    ⟨fun ⟨h₁, h₂, h₃⟩ => ⟨h₁, h₂, h₃⟩, fun ⟨h₁, h₂, h₃⟩ => ⟨h₁, h₂, h₃⟩⟩

instance (e : Event) : Decidable e.Recordable :=
  decidable_of_iff
    (e.char.length = 1 ∧ (∀ t ∈ e.source, t.NoSurrogate) ∧
      (e.kind = 2400 ∨ e.kind = 2401 ∨ e.kind = 2402) ∧ Short e.time ∧
      Short e.modifiers ∧ Short e.rawCode ∧ Short e.keyCode ∧ Short e.location ∧
      (e.kind = 2400 → e.keyCode = 0 ∧ e.char ≠ noChar))
    ⟨fun ⟨h₁, h₂, h₃, h₄, h₅, h₆, h₇, h₈, h₉⟩ => ⟨h₁, h₂, h₃, h₄, h₅, h₆, h₇, h₈, h₉⟩,
      fun ⟨h₁, h₂, h₃, h₄, h₅, h₆, h₇, h₈, h₉⟩ => ⟨h₁, h₂, h₃, h₄, h₅, h₆, h₇, h₈, h₉⟩⟩

theorem Encodable.exists_char {e : Event} (h : e.Encodable) : ∃ c, e.char = [c] :=
  List.length_eq_one_iff.1 h.char

theorem Short.fewDigits {z : Int} (h : Short z) : Numeral.FewDigits z := by
  rw [Short, Numeral.length_decimal] at h
  exact Nat.le_trans (Nat.le_add_right _ _) h

theorem Recordable.toEncodable {e : Event} (h : e.Recordable) : e.Encodable where
  char := h.char
  source := h.source
  digits := by
    have hkind : Numeral.FewDigits e.kind := by
      rcases h.kind with hk | hk | hk <;> rw [hk] <;> decide
    simp only [List.forall_mem_cons]
    exact ⟨hkind, h.time.fewDigits, h.modifiers.fewDigits, h.rawCode.fewDigits, h.keyCode.fewDigits,
      h.location.fewDigits, nofun⟩

theorem Recordable.exists_char {e : Event} (h : e.Recordable) : ∃ c, e.char = [c] :=
  h.toEncodable.exists_char

theorem Recordable.allowed {e : Event} (h : e.Recordable) : Allowed e.kind e.keyCode e.char :=
  h.typed

end Keystroke.Event
