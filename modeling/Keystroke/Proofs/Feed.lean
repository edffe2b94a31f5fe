import Keystroke.Feed

namespace Keystroke.Feed

variable {α ε : Type} {counts : α → Bool}

theorem prefix_of_upTo? {n : Nat} {as items : List α} (h : upTo? counts n as = some items) :
    items <+: as := by
  induction as generalizing n items with
  | nil =>
      cases n with
      | zero =>
          cases h
          exact List.prefix_rfl
      | succ n => cases h
  | cons a as ih =>
      cases n with
      | zero =>
          cases h
          exact List.nil_prefix
      | succ n =>
          obtain ⟨rest, hr, rfl⟩ := Option.map_eq_some_iff.1 h
          exact List.prefix_cons_inj a |>.2 (ih hr)

theorem upTo?_append {n : Nat} {as items : List α} (h : upTo? counts n as = some items)
    (more : List α) : upTo? counts n (as ++ more) = some items := by
  induction as generalizing n items with
  | nil =>
      cases n with
      | zero =>
          cases h
          rw [upTo?]
      | succ n => cases h
  | cons a as ih =>
      cases n with
      | zero =>
          cases h
          rw [upTo?]
      | succ n =>
          obtain ⟨rest, hr, rfl⟩ := Option.map_eq_some_iff.1 h
          rw [List.cons_append, upTo?, ih hr]
          rfl

theorem upTo?_eq_none {n : Nat} {as : List α} (h : as.countP counts < n) :
    upTo? counts n as = none := by
  induction as generalizing n with
  | nil =>
      cases n with
      | zero => cases h
      | succ n => rfl
  | cons a as ih =>
      cases n with
      | zero => cases h
      | succ n =>
          have hrest : as.countP counts < if counts a = true then n else n + 1 := by
            rw [List.countP_cons] at h
            split <;> simp_all
          rw [upTo?, ih hrest]
          rfl

theorem upTo?_map {g : α → α} (hg : ∀ a, counts (g a) = counts a) (n : Nat) (as : List α) :
    upTo? counts n (as.map g) = (upTo? counts n as).map (List.map g) := by
  induction as generalizing n with
  | nil => cases n <;> rfl
  | cons a as ih =>
      cases n with
      | zero => rfl
      | succ n =>
          rw [List.map_cons, upTo?, upTo?, hg, ih, Option.map_map, Option.map_map]
          rfl

theorem stopAfter_of_upTo? {n : Nat} {f : Feed α ε} {items : List α}
    (h : upTo? counts n f.items = some items) : f.stopAfter counts (some n) = ⟨items, none⟩ := by
  simp only [stopAfter, h]

theorem stopAfter_of_countP_lt {n : Nat} {f : Feed α ε} (h : f.items.countP counts < n) :
    f.stopAfter counts (some n) = f := by
  simp only [stopAfter, upTo?_eq_none h]

theorem stopAfter_cases (counts : α → Bool) (n : Option Nat) (f : Feed α ε) :
    f.stopAfter counts n = f ∨
      ∃ items, items <+: f.items ∧ f.stopAfter counts n = ⟨items, none⟩ := by
  cases n with
  | none => exact .inl rfl
  | some n =>
      cases h : upTo? counts n f.items with
      | none => exact .inl (by simp only [stopAfter, h])
      | some items => exact .inr ⟨items, prefix_of_upTo? h, stopAfter_of_upTo? h⟩

theorem stopAfter_map {g : α → α} (hg : ∀ a, counts (g a) = counts a) (n : Option Nat) (f : Feed α ε) :
    stopAfter counts n ⟨f.items.map g, f.failure⟩ =
      ⟨(f.stopAfter counts n).items.map g, (f.stopAfter counts n).failure⟩ := by
  cases n with
  | none => rfl
  | some n =>
      simp only [stopAfter, upTo?_map hg]
      cases upTo? counts n f.items <;> rfl

end Keystroke.Feed
