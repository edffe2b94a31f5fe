import Keystroke.Text.UpperCase
import Mathlib.Data.List.Forall2

namespace Keystroke

namespace CodePoint

def IsCapital (c : CodePoint) : Prop := 0x41 ≤ c.val ∧ c.val ≤ 0x5A

instance (c : CodePoint) : Decidable (IsCapital c) := inferInstanceAs (Decidable (_ ∧ _))

/-- What may stand for a capital letter: the letter, the small letter, the dotless i and the long s. -/
def Spells (letter c : CodePoint) : Prop :=
  c = letter ∨ c.val = letter.val + 0x20 ∨ letter = 'I' ∧ c = '\u0131' ∨ letter = 'S' ∧ c = '\u017f'

instance (letter c : CodePoint) : Decidable (Spells letter c) := inferInstanceAs (Decidable (_ ∨ _))

theorem upper_of_spells {letter c : CodePoint} (hl : IsCapital letter) (h : Spells letter c) :
    c.upper = [letter] := by
  have hletters : ∀ n : Fin 26, upper ⟨0x41 + n, by omega⟩ = [⟨0x41 + n, by omega⟩] ∧
      upper ⟨0x61 + n, by omega⟩ = [⟨0x41 + n, by omega⟩] := by decide +kernel
  obtain ⟨hfirst, hlast⟩ := hl
  obtain ⟨hcapital, hsmall⟩ := hletters ⟨letter.val - 0x41, by omega⟩
  have hletter : letter = ⟨0x41 + (letter.val - 0x41), by omega⟩ := CodePoint.ext (by simp; omega)
  rcases h with rfl | h | ⟨rfl, rfl⟩ | ⟨rfl, rfl⟩
  · rw [← hletter] at hcapital
    exact hcapital
  · have hc : c = ⟨0x61 + (letter.val - 0x41), by omega⟩ := CodePoint.ext (by simp; omega)
    rw [← hletter, ← hc] at hsmall
    exact hsmall
  · decide +kernel
  · decide +kernel

theorem run_cases {run : CaseRun} (hrun : run ∈ CaseRun.all) :
    (0x5A < run.first ∧ 0x5A < run.first + run.distance) ∨
      (run.first = 0x61 ∧ run.last = 0x7A ∧ run.distance = -0x20) ∨
      (run.first = 0x131 ∧ run.last = 0x131 ∧ run.distance = 0x49 - 0x131) ∨
      (run.first = 0x17F ∧ run.last = 0x17F ∧ run.distance = 0x53 - 0x17F) := by
  revert run
  decide +kernel

theorem upper_run {run : CaseRun} {c : CodePoint} (h : run.holds c = true) :
    run.first ≤ c.val ∧ c.val ≤ run.last ∧
      (run.upper c = c ∨ ((run.upper c).val : Int) = (c.val + run.distance).toNat) := by
  rw [CaseRun.holds, Bool.and_eq_true, Bool.and_eq_true, decide_eq_true_eq, decide_eq_true_eq] at h
  refine ⟨h.1.1, h.1.2, ?_⟩
  rw [CaseRun.upper]
  cases hu : ofNat? (c.val + run.distance).toNat with
  | none => exact .inl rfl
  | some u => exact .inr (by rw [Option.getD_some, val_of_ofNat? hu])

theorem spells_of_run {run : CaseRun} (hrun : run ∈ CaseRun.all) {c : CodePoint} (h : run.holds c = true)
    (hu : IsCapital (run.upper c)) : Spells (run.upper c) c := by
  obtain ⟨hfirst, hlast, hself | hval⟩ := upper_run h
  · exact .inl hself.symm
  · obtain ⟨hmin, hmax⟩ := hu
    rcases run_cases hrun with ⟨hbeyond, himage⟩ | ⟨hf, hl, hd⟩ | ⟨hf, hl, hd⟩ | ⟨hf, hl, hd⟩
    · omega
    · exact .inr (.inl (by omega))
    · refine .inr (.inr (.inl ⟨CodePoint.ext ?_, CodePoint.ext ?_⟩))
      · change _ = 0x49; omega
      · change _ = 0x131; omega
    · refine .inr (.inr (.inr ⟨CodePoint.ext ?_, CodePoint.ext ?_⟩))
      · change _ = 0x53; omega
      · change _ = 0x17F; omega

theorem upper_cases (c : CodePoint) :
    (∃ letters, (c.val, letters) ∈ upperExpansions ∧ c.upper = letters.filterMap ofNat?) ∨
      ∃ letter, c.upper = [letter] ∧ (IsCapital letter → Spells letter c) := by
  rw [upper]
  cases he : upperExpansions.find? (·.1 == c.val) with
  | some e =>
      have hcode : e.1 = c.val := by simpa using List.find?_some he
      exact .inl ⟨e.2, hcode ▸ List.mem_of_find?_eq_some he, rfl⟩
  | none =>
      refine .inr ?_
      cases hr : CaseRun.all.find? (·.holds c) with
      | none => exact ⟨c, rfl, fun _ => .inl rfl⟩
      | some run =>
          have hholds : run.holds c = true := by simpa using List.find?_some hr
          exact ⟨_, rfl, spells_of_run (List.mem_of_find?_eq_some hr) hholds⟩

end CodePoint

namespace Text

def Spells (name t : Text) : Prop := List.Forall₂ CodePoint.Spells name t

instance (name t : Text) : Decidable (Spells name t) := inferInstanceAs (Decidable (List.Forall₂ _ _ _))

structure Plain (name : Text) : Prop where
  capital : ∀ c ∈ name, CodePoint.IsCapital c
  unexpanded : ∀ e ∈ CodePoint.upperExpansions, ¬ e.2.filterMap CodePoint.ofNat? <:+: name

theorem Plain.tail {c : CodePoint} {name : Text} (h : Plain (c :: name)) : Plain name where
  capital d hd := h.capital d (List.mem_cons_of_mem c hd)
  unexpanded e he hi := h.unexpanded e he (List.IsInfix.trans hi (List.suffix_cons c name).isInfix)

theorem upper_cons (c : CodePoint) (t : Text) : upper (c :: t) = c.upper ++ upper t := List.flatMap_cons

theorem upper_of_spells {name t : Text} (hname : Plain name) (h : Spells name t) : t.upper = name := by
  induction h with
  | nil => rfl
  | cons hc _ ih =>
      rw [upper_cons, CodePoint.upper_of_spells (hname.capital _ List.mem_cons_self) hc, ih hname.tail]
      rfl

theorem spells_of_upper {name t : Text} (hname : Plain name) (h : t.upper = name) : Spells name t := by
  induction t generalizing name with
  | nil =>
      cases h
      exact .nil
  | cons c t ih =>
      rw [upper_cons] at h
      rcases c.upper_cases with ⟨letters, he, hu⟩ | ⟨letter, hu, hspells⟩
      · -- The expansion would be the front of a name that has none in it.
        refine absurd ?_ (hname.unexpanded _ he)
        rw [← h, hu]
        exact (List.prefix_append _ _).isInfix
      · subst h
        rw [hu] at hname ⊢
        exact .cons (hspells (hname.capital _ List.mem_cons_self)) (ih hname.tail rfl)

/-- A name is what is made of the texts that spell it, and of no others. -/
theorem upper_eq_iff {name t : Text} (hname : Plain name) : t.upper = name ↔ Spells name t :=
  ⟨spells_of_upper hname, upper_of_spells hname⟩

end Text

end Keystroke
