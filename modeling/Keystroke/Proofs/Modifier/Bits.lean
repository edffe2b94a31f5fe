import Keystroke.Proofs.Modifier
import Mathlib.Data.Int.Bitwise

namespace Keystroke.Modifier

theorem isIn_eq_testBit (mask : Int) (m : Modifier) : m.isIn mask = mask.testBit m.bit := by
  rw [isIn]
  generalize m.bit = k
  cases mask with
  | ofNat n =>
      have hquotient : Int.ofNat n / 2 ^ k = ((n / 2 ^ k : Nat) : Int) := by
        rw [Int.natCast_ediv, Int.natCast_pow]
        rfl
      rw [hquotient, Int.testBit, Nat.testBit_eq_decide_div_mod_eq, Bool.eq_iff_iff, beq_iff_eq,
        decide_eq_true_eq]
      omega
  | negSucc n =>
      have hquotient : Int.negSucc n / 2 ^ k = -(((n / 2 ^ k : Nat) : Int) + 1) := by
        rw [Int.negSucc_ediv n (Int.pow_pos (by decide)), Int.natCast_ediv, Int.natCast_pow]
        rfl
      rw [hquotient, Int.testBit, Nat.testBit_eq_decide_div_mod_eq, Bool.eq_iff_iff, beq_iff_eq,
        Bool.not_eq_true', decide_eq_false_iff_not]
      omega

theorem filter_isIn (mask : Int) :
    all.filter (·.isIn mask) = all.filter fun m => mask.testBit m.bit :=
  List.filter_congr fun m _ => isIn_eq_testBit mask m

theorem isIn_land (mask : Int) (m : Modifier) : m.isIn (mask.land 0x1FF) = m.isIn mask := by
  have hset : ∀ m ∈ all, (0x1FF : Int).testBit m.bit = true := by decide
  rw [isIn_eq_testBit, isIn_eq_testBit, Int.testBit_land, hset m m.mem_all, Bool.and_true]

theorem maskText_land (mask : Int) (labels : Labels) :
    maskText (mask.land 0x1FF) labels = maskText mask labels := by
  have hfilter : all.filter (·.isIn (mask.land 0x1FF)) = all.filter (·.isIn mask) :=
    List.filter_congr fun m _ => isIn_land mask m
  rw [maskText_eq, maskText_eq, hfilter]

/-- A mask is shown by the labels of its bits, lowest first, joined by a plus; bits from the tenth on do not show.
Where the labels can be told apart and read back, as without overrides, equal texts mean the same nine bits. -/
theorem maskText_nineBits (mask : Int) (labels : Labels) :
    maskText mask labels = maskText (mask.land 0x1FF) labels ∧
    maskText mask labels = Text.joined "+"
      ((all.filter fun m => mask.testBit m.bit).map fun m => labels.resolve m.labelId m.label) ∧
    all.map (fun m => (m.bit, m.labelId, m.label)) =
      ([(0, "shift", "Shift"), (1, "control", "Ctrl"), (2, "meta", "Meta"), (3, "alt", "Alt"),
        (4, "button1", "Button1"), (5, "button2", "Button2"), (6, "button3", "Button3"),
        (7, "button4", "Button4"), (8, "button5", "Button5")] : List (Nat × Text × Text)) ∧
    Distinguishable .empty ∧
    (Distinguishable labels → ∀ mask', maskText mask labels = maskText mask' labels ↔
      mask % 512 = mask' % 512) := by
  refine ⟨(maskText_land mask labels).symm, ?_, rfl, distinguishable_empty, ?_⟩
  · rw [maskText_eq, filter_isIn]
    rfl
  · exact fun h mask' => maskText_eq_iff h

/-- Labels of which two are each that of the other flag without overrides. -/
def exchanged : Labels := .ofList [("control", "Button1"), ("button1", "Ctrl"), ("shift", "⇧")]

theorem maskText_nineBits_exchanged :
    Distinguishable exchanged ∧ maskText (-511) exchanged = maskText 513 exchanged ∧
      maskText 513 exchanged = "⇧" ∧ maskText 2 exchanged ≠ maskText 16 exchanged := by
  have h : Distinguishable exchanged := by decide
  obtain ⟨-, -, -, -, hnegative⟩ := maskText_nineBits (-511) exchanged
  obtain ⟨-, htext, -⟩ := maskText_nineBits 513 exchanged
  obtain ⟨-, -, -, -, hcontrol⟩ := maskText_nineBits 2 exchanged
  refine ⟨h, (hnegative h 513).2 (by decide), ?_, fun he => ?_⟩
  · rw [htext]
    decide
  · exact absurd ((hcontrol h 16).1 he) (by decide)

end Keystroke.Modifier
