import Keystroke.Binary64

namespace Keystroke.Binary64

def positive : Binary64 → Bool
  | .nan _ => false
  | .infinite negative => !negative
  | .finite negative rank => !negative && rank.val != 0

def nonnegative : Binary64 → Bool
  | .nan _ => false
  | .infinite negative => !negative
  | .finite negative rank => !negative || rank.val == 0

theorem isNaN_of_nonnegative {x : Binary64} (h : x.nonnegative = true) : x.isNaN = false := by
  cases x with
  | nan => cases h
  | infinite | finite => rfl

theorem nonpositive_eq_false_iff {x : Binary64} :
    x.nonpositive = false ↔ x.positive = true ∨ x.isNaN = true := by
  cases x with
  | nan => simp [nonpositive, isNaN]
  | infinite negative => simp [nonpositive, positive, isNaN]
  | finite negative rank => simp [nonpositive, positive, isNaN]

theorem exists_of_ofRank? {negative : Bool} {rank : Nat} {x : Binary64}
    (h : ofRank? negative rank = some x) : ∃ r, r.val = rank ∧ x = .finite negative r := by
  rw [ofRank?] at h
  split at h
  · cases h
    exact ⟨_, rfl, rfl⟩
  · cases h

theorem nonnegative_ofRank (rank : Nat) : (ofRank false rank).nonnegative = true := by
  rw [ofRank]
  cases h : ofRank? false rank with
  | none => rfl
  | some x =>
      obtain ⟨r, -, rfl⟩ := exists_of_ofRank? h
      rfl

/-- A magnitude by a positive number is zero or above, also when it overflows or either is infinite. -/
theorem nonnegative_div {r : Fin (2047 * 2 ^ 52)} {x : Binary64} (hx : x.positive = true) :
    (.finite false r / x : Binary64).nonnegative = true := by
  change (div _ _).nonnegative = true
  cases x with
  | nan => cases hx
  | infinite negative =>
      cases negative with
      | true => cases hx
      | false => rfl
  | finite negative rank =>
      cases negative with
      | true => cases hx
      | false =>
          have hr : rank.val ≠ 0 := by simpa [positive] using hx
          rw [div, if_neg hr]
          exact nonnegative_ofRank _

theorem floorLog2_one_ge (p : Nat) : -1 ≤ floorLog2 p 1 := by
  have h : Nat.log2 1 = 0 := rfl
  rw [floorLog2, h]
  split <;> omega

-- Positive integers lie far above the least magnitude there is.
theorem rankOf_one_ne_zero {p : Nat} (h : p ≠ 0) : rankOf p 1 ≠ 0 := by
  rw [rankOf, if_neg h]
  have := floorLog2_one_ge p
  dsimp only
  omega

theorem positive_of_ofInt? {z : Int} (hz : 0 < z) {x : Binary64} (h : ofInt? z = some x) :
    x.positive = true := by
  rw [ofInt?, decide_eq_false (Int.not_lt.2 (Int.le_of_lt hz))] at h
  obtain ⟨r, hr, rfl⟩ := exists_of_ofRank? h
  have hne := rankOf_one_ne_zero (p := z.natAbs) (by omega)
  simp [positive, hr, hne]

end Keystroke.Binary64
