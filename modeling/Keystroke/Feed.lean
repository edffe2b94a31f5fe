namespace Keystroke

/-- What a consumer that stops has not asked for, the failure included, does not happen. -/
structure Feed (α ε : Type) where
  items : List α
  failure : Option ε := none

namespace Feed

variable {α ε : Type}

def cons (a : α) (f : Feed α ε) : Feed α ε := ⟨a :: f.items, f.failure⟩

def failingAt (n : Option Nat) (failure : ε) (items : List α) : Feed α ε :=
  match n with
  | none => ⟨items, none⟩
  | some n => ⟨items.take n, if n < items.length then some failure else none⟩

def upTo? (counts : α → Bool) : Nat → List α → Option (List α)
  | 0, _ => some []
  | _ + 1, [] => none
  | n + 1, a :: as => (upTo? counts (if counts a then n else n + 1) as).map (a :: ·)

/-- What a consumer sees that stops once `n` items that count have come, if a number is given. -/
def stopAfter (counts : α → Bool) (n : Option Nat) (f : Feed α ε) : Feed α ε :=
  match n with
  | none => f
  | some n =>
    match upTo? counts n f.items with
    | some items => ⟨items, none⟩
    | none => f

end Feed

end Keystroke
