import Keystroke.Binary64.Decimal
import Keystroke.Proofs.Text
import Keystroke.Proofs.Utf8

namespace Keystroke

open Numeral

def Graphic (c : CodePoint) : Prop := 0x20 ≤ c.val ∧ c.val < 0x7F

instance (c : CodePoint) : Decidable (Graphic c) := inferInstanceAs (Decidable (_ ∧ _))

theorem Graphic.not_surrogate {c : CodePoint} (h : Graphic c) : c.isSurrogate = false :=
  CodePoint.isSurrogate_of_lt (Nat.lt_trans h.2 (by decide))

theorem graphic_ofDigit {d : Nat} (h : d < 16) : Graphic (CodePoint.ofDigit d) := by
  revert h
  revert d
  decide

theorem graphic_of_mem_natural {base n : Nat} (hb : 0 < base) (h : base ≤ 16) {x : CodePoint}
    (hx : x ∈ natural base n) : Graphic x := by
  obtain ⟨d, hd, rfl⟩ := List.mem_map.1 hx
  exact graphic_ofDigit (Nat.lt_of_lt_of_le (lt_of_mem_digits hb hd) h)

theorem graphic_of_mem_zeroPadded (width : Nat) {t : Text} (ht : ∀ x ∈ t, Graphic x) :
    ∀ x ∈ zeroPadded width t, Graphic x := by
  intro x hx
  rcases List.mem_append.1 hx with hx | hx
  · rw [List.eq_of_mem_replicate hx]
    decide
  · exact ht x hx

theorem graphic_of_mem_sign {z : Int} {x : CodePoint} (hx : x ∈ sign z) : Graphic x := by
  have hminus : ∀ x ∈ (("-" : Text)), Graphic x := by decide
  rw [sign] at hx
  split at hx
  · exact hminus x hx
  · cases hx

theorem graphic_of_mem_decimal {z : Int} {x : CodePoint} (hx : x ∈ decimal z) : Graphic x := by
  rcases List.mem_append.1 hx with hx | hx
  · exact graphic_of_mem_sign hx
  · exact graphic_of_mem_natural (by decide) (by decide) hx

theorem graphic_of_mem_hex {z : Int} {x : CodePoint} (hx : x ∈ hex z) : Graphic x := by
  rcases List.mem_append.1 hx with hx | hx
  · exact graphic_of_mem_sign hx
  · exact graphic_of_mem_natural (by decide) (by decide) hx

namespace Binary64

theorem graphic_of_mem_magnitude (layout : Layout) (d : Decimal) :
    ∀ x ∈ layout.magnitude d, Graphic x := by
  have hds : ∀ x ∈ (((digits 10 d.coefficient).reverse.dropWhile (· == 0)).reverse).map
      CodePoint.ofDigit, Graphic x := by
    intro x hx
    obtain ⟨e, he, rfl⟩ := List.mem_map.1 hx
    have hmem := List.mem_reverse.1 ((List.dropWhile_sublist _).subset (List.mem_reverse.1 he))
    exact graphic_ofDigit (Nat.lt_trans (lt_of_mem_digits (by decide) hmem) (by decide))
  have hzeros (n : Nat) : ∀ x ∈ List.replicate n (CodePoint.ofChar '0'), Graphic x := by
    intro x hx
    rw [List.eq_of_mem_replicate hx]
    decide
  have hexponent (n width : Nat) := graphic_of_mem_zeroPadded width (t := natural 10 n)
    fun _ => graphic_of_mem_natural (by decide) (by decide)
  have hmark (t : Text) (ht : t ∈ (["0.", ".0", ".", "e-", "e+"] : List Text)) : ∀ x ∈ t, Graphic x := by
    revert t
    decide
  rw [Layout.magnitude]
  dsimp only
  generalize (((digits 10 d.coefficient).reverse.dropWhile (· == 0)).reverse).map CodePoint.ofDigit =
    ds at hds ⊢
  have htake (n : Nat) : ∀ x ∈ ds.take n, Graphic x := fun x hx => hds x (List.mem_of_mem_take hx)
  have hdrop (n : Nat) : ∀ x ∈ ds.drop n, Graphic x := fun x hx => hds x (List.mem_of_mem_drop hx)
  have hcut (n : Nat) : ∀ x ∈ ds.take n ++ "." ++ ds.drop n, Graphic x :=
    List.forall_mem_append.2 ⟨List.forall_mem_append.2 ⟨htake n, hmark _ (by simp)⟩, hdrop n⟩
  split
  · split
    · exact List.forall_mem_append.2 ⟨List.forall_mem_append.2 ⟨hmark _ (by simp), hzeros _⟩, hds⟩
    split
    · exact List.forall_mem_append.2 ⟨List.forall_mem_append.2 ⟨hds, hzeros _⟩, hmark _ (by simp)⟩
    · exact hcut _
  · refine List.forall_mem_append.2 ⟨List.forall_mem_append.2 ⟨?_, ?_⟩, hexponent _ _⟩
    · split
      · exact hds
      · exact hcut _
    · split
      · exact hmark _ (by simp)
      · exact hmark _ (by simp)

theorem graphic_of_mem_text (x : Binary64) : ∀ c ∈ x.text, Graphic c := by
  have hword (t : Text) (ht : t ∈ (["nan", "inf", "-inf", "0.0", "-"] : List Text)) :
      ∀ c ∈ t, Graphic c := by
    revert t
    decide
  cases x with
  | nan negative => exact hword "nan" (by simp)
  | infinite negative =>
      cases negative with
      | false => exact hword "inf" (by simp)
      | true => exact hword "-inf" (by simp)
  | finite negative rank =>
      have hmagnitude : ∀ c ∈ (if rank.val = 0 then ("0.0" : Text)
          else plainLayout.magnitude (shortest rank)), Graphic c := by
        split
        · exact hword _ (by simp)
        · exact graphic_of_mem_magnitude _ _
      rw [text]
      split
      · exact List.forall_mem_append.2 ⟨hword _ (by simp), hmagnitude⟩
      · exact hmagnitude

end Binary64

end Keystroke
