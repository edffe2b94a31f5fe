import Keystroke.Recorder

namespace Keystroke.Recorder

variable {α ε : Type}

/-- The next item is kept when it is delivered. Where there is none, nothing is kept, and nothing will come. -/
theorem pull_cases (r : Recorder α ε) :
    (∃ a rest, r.pending.items = a :: rest ∧
      r.pull = (.item a, ⟨⟨rest, r.pending.failure⟩, r.recorded ++ [a]⟩)) ∨
    r.pending.items = [] ∧ ∃ p, (∀ a, p ≠ .item a) ∧ r.pull = (p, ⟨⟨[], none⟩, r.recorded⟩) := by
  obtain ⟨⟨items, failure⟩, recorded⟩ := r
  cases items with
  | cons a rest => exact .inl ⟨a, rest, rfl, rfl⟩
  | nil =>
      cases failure with
      | some e => exact .inr ⟨rfl, .failed e, nofun, rfl⟩
      | none => exact .inr ⟨rfl, .ended, nofun, rfl⟩

/-- A consumer that asks `n` times gets the next `n` items, or all there are and then the failure. -/
theorem pulls_eq (n : Nat) (r : Recorder α ε) :
    pulls n r =
      (⟨r.pending.items.take n, if n ≤ r.pending.items.length then none else r.pending.failure⟩,
        ⟨⟨r.pending.items.drop n, if n ≤ r.pending.items.length then r.pending.failure else none⟩,
          r.recorded ++ r.pending.items.take n⟩) := by
  obtain ⟨⟨items, failure⟩, recorded⟩ := r
  induction n generalizing items recorded with
  | zero => simp [pulls]
  | succ n ih =>
      cases items with
      | nil => cases failure <;> simp [pulls, pull]
      | cons a rest => simp [pulls, pull, ih, Feed.cons]

theorem pulls_closed (n : Nat) (recorded : List α) :
    (pulls n (⟨⟨[], none⟩, recorded⟩ : Recorder α ε)).2 = ⟨⟨[], none⟩, recorded⟩ := by
  simp [pulls_eq]

theorem consume_some (n : Nat) (source : Feed α ε) :
    (consume (some n) { pending := source }).1.items = source.items.take n ∧
      (consume (some n) { pending := source }).2.recorded = source.items.take n := by
  rw [consume, pulls_eq]
  exact ⟨rfl, rfl⟩

theorem consume_none (source : Feed α ε) :
    consume none { pending := source } = (source, ⟨⟨[], none⟩, source.items⟩) := by
  have hall : ¬ source.items.length + 1 ≤ source.items.length := Nat.not_succ_le_self _
  have hle := Nat.le_succ source.items.length
  rw [consume, Option.getD_none, pulls_eq]
  dsimp only
  rw [if_neg hall, if_neg hall, List.take_of_length_le hle, List.drop_of_length_le hle, List.nil_append]

end Keystroke.Recorder
