import Keystroke.KeyName
import Keystroke.Proofs.Text

namespace Keystroke.Modifier

def shown (labels : Labels) (m : Modifier) : Text := labels.resolve m.labelId m.label

theorem maskText_eq (mask : Int) (labels : Labels) :
    maskText mask labels = Text.joined "+" ((all.filter (·.isIn mask)).map (shown labels)) := rfl

theorem mem_all (m : Modifier) : m ∈ all := by
  cases m <;> decide

/-- Labels of which each can be read back from a text of several. -/
structure Distinguishable (labels : Labels) : Prop where
  ne_nil : ∀ m, shown labels m ≠ []
  notMem : ∀ m, CodePoint.ofChar '+' ∉ shown labels m
  inj : ∀ m m', shown labels m = shown labels m' → m = m'

instance (labels : Labels) : Decidable (Distinguishable labels) :=
  decidable_of_iff
    (∀ m ∈ all, shown labels m ≠ [] ∧ CodePoint.ofChar '+' ∉ shown labels m ∧
      ∀ m' ∈ all, shown labels m = shown labels m' → m = m')
    ⟨fun h => ⟨fun m => (h m m.mem_all).1, fun m => (h m m.mem_all).2.1,
      fun m m' => (h m m.mem_all).2.2 m' m'.mem_all⟩,
      fun h m _ => ⟨h.ne_nil m, h.notMem m, fun m' _ => h.inj m m'⟩⟩

theorem distinguishable_empty : Distinguishable .empty := by decide

theorem isIn_congr {mask mask' : Int} (h : mask % 512 = mask' % 512) (m : Modifier) :
    m.isIn mask = m.isIn mask' := by
  have hbit : mask / 2 ^ m.bit % 2 = mask' / 2 ^ m.bit % 2 := by
    cases m <;> simp only [bit] <;> omega
  rw [isIn, isIn, hbit]

theorem bit_congr {mask mask' : Int} {m : Modifier} (h : m.isIn mask = m.isIn mask') :
    mask / 2 ^ m.bit % 2 = mask' / 2 ^ m.bit % 2 := by
  rw [isIn, isIn, Bool.eq_iff_iff, beq_iff_eq, beq_iff_eq] at h
  generalize mask / 2 ^ m.bit = z at h ⊢
  generalize mask' / 2 ^ m.bit = w at h ⊢
  omega

theorem emod_two_pow_succ (z : Int) (k : Nat) :
    z % 2 ^ (k + 1) = z % 2 ^ k + 2 ^ k * (z / 2 ^ k % 2) := by
  have hk : (0 : Int) < 2 ^ k := Int.pow_pos (by decide)
  rw [Int.pow_succ, Int.emod_def, Int.emod_def z, Int.emod_def _ 2, Int.mul_sub, Int.mul_assoc,
    Int.ediv_ediv_of_nonneg (Int.le_of_lt hk)]
  omega

theorem emod_two_pow_congr {z w : Int} {k : Nat} (h : ∀ i < k, z / 2 ^ i % 2 = w / 2 ^ i % 2) :
    z % 2 ^ k = w % 2 ^ k := by
  induction k with
  | zero => simp
  | succ k ih =>
      have hlow := ih fun i hi => h i (Nat.lt_succ_of_lt hi)
      rw [emod_two_pow_succ, emod_two_pow_succ, hlow, h k (Nat.lt_succ_self k)]

theorem emod_eq_of_isIn {mask mask' : Int} (h : ∀ m : Modifier, m.isIn mask = m.isIn mask') :
    mask % 512 = mask' % 512 := by
  have hbits : ∀ i < 9, ∃ m ∈ all, m.bit = i := by decide
  refine emod_two_pow_congr (k := 9) fun i hi => ?_
  obtain ⟨m, -, rfl⟩ := hbits i hi
  exact bit_congr (h m)

theorem maskText_congr {mask mask' : Int} (h : mask % 512 = mask' % 512) (labels : Labels) :
    maskText mask labels = maskText mask' labels := by
  have hfilter : all.filter (·.isIn mask) = all.filter (·.isIn mask') :=
    List.filter_congr fun m _ => isIn_congr h m
  rw [maskText_eq, maskText_eq, hfilter]

theorem maskText_eq_iff {labels : Labels} (h : Distinguishable labels) {mask mask' : Int} :
    maskText mask labels = maskText mask' labels ↔ mask % 512 = mask' % 512 := by
  refine ⟨fun he => emod_eq_of_isIn fun m => ?_, fun he => maskText_congr he labels⟩
  have hparts (mask : Int) : ∀ p ∈ (all.filter (·.isIn mask)).map (shown labels),
      p ≠ [] ∧ CodePoint.ofChar '+' ∉ p := by
    intro p hp
    obtain ⟨m, -, rfl⟩ := List.mem_map.1 hp
    exact ⟨h.ne_nil m, h.notMem m⟩
  have hmem (mask : Int) : shown labels m ∈ (all.filter (·.isIn mask)).map (shown labels) ↔
      m.isIn mask = true := by
    constructor
    · intro hm
      obtain ⟨m', hm', hs⟩ := List.mem_map.1 hm
      exact h.inj m' m hs ▸ (List.mem_filter.1 hm').2
    · exact fun hm => List.mem_map_of_mem (List.mem_filter.2 ⟨m.mem_all, hm⟩)
  have hsame := Text.joined_inj (hparts mask) (hparts mask') he
  rw [Bool.eq_iff_iff, ← hmem mask, ← hmem mask', hsame]

end Keystroke.Modifier
