import Keystroke.Event.Describe
import Keystroke.Proofs.Digits
import Keystroke.Proofs.Result

namespace Keystroke.Event

def described (e : Event) (labels : Labels) : Text :=
  Text.joined "," (e.parts labels (Numeral.decimal e.keyCode) (Numeral.decimal e.rawCode)
    (if e.modifiers = 0 then none else some (Modifier.maskText e.modifiers labels)))

/-- An event whose description can be written. The numbers of kind, location and modifiers are not shown in
decimal, and those of time and source not at all. -/
def Describable (e : Event) : Prop := Numeral.FewDigits e.keyCode ∧ Numeral.FewDigits e.rawCode

instance (e : Event) : Decidable e.Describable := inferInstanceAs (Decidable (_ ∧ _))

theorem describe_of_describable {e : Event} (h : e.Describable) (labels : Labels) :
    e.describe labels = .ok (e.described labels) := by
  rw [describe, describeWith, described, Numeral.written_of_fewDigits h.1, Numeral.written_of_fewDigits h.2]
  by_cases hm : e.modifiers = 0
  · simp only [hm, if_true]
    rfl
  · simp only [hm, if_false]
    rfl

theorem describe_of_not_describable {e : Event} (h : ¬ e.Describable) (labels : Labels) :
    e.describe labels = .error ⟨⟩ := by
  rw [describe, describeWith]
  by_cases hk : Numeral.FewDigits e.keyCode
  · have hr : ¬ Numeral.FewDigits e.rawCode := fun hr => h ⟨hk, hr⟩
    rw [Numeral.written_of_fewDigits hk, Numeral.written_of_not_fewDigits hr]
    split <;> rfl
  · rw [Numeral.written_of_not_fewDigits hk]
    rfl

theorem describe_eq_ok_iff {e : Event} {labels : Labels} {t : Text} :
    e.describe labels = .ok t ↔ e.Describable ∧ t = e.described labels := by
  by_cases h : e.Describable
  · rw [describe_of_describable h, and_iff_right h, Except.ok.injEq, eq_comm]
  · rw [describe_of_not_describable h]
    exact ⟨nofun, fun hd => absurd hd.1 h⟩

end Keystroke.Event
