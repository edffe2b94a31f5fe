import Keystroke.Feed

namespace Keystroke

structure Recorder (α ε : Type) where
  pending : Feed α ε
  recorded : List α := []

namespace Recorder

variable {α ε : Type}

def empty : Recorder α ε := { pending := ⟨[], none⟩ }

inductive Pull (α ε : Type)
  | item (a : α)
  | ended
  | failed (e : ε)

/-- A source that has failed has nothing more to deliver. -/
def pull (r : Recorder α ε) : Pull α ε × Recorder α ε :=
  match r.pending.items with
  | a :: rest =>
    (.item a, { pending := ⟨rest, r.pending.failure⟩, recorded := r.recorded ++ [a] })
  | [] =>
    match r.pending.failure with
    | some e => (.failed e, { r with pending := ⟨[], none⟩ })
    | none => (.ended, r)

/-- A consumer that stops closes the source. -/
def stop (r : Recorder α ε) : Recorder α ε := { r with pending := ⟨[], none⟩ }

def pulls : Nat → Recorder α ε → Feed α ε × Recorder α ε
  | 0, r => (⟨[], none⟩, r)
  | n + 1, r =>
    match r.pull with
    | (.item a, r) =>
      let (got, r) := pulls n r
      (got.cons a, r)
    | (.ended, r) => (⟨[], none⟩, r)
    | (.failed e, r) => (⟨[], some e⟩, r)

def consume (n : Option Nat) (r : Recorder α ε) : Feed α ε × Recorder α ε :=
  pulls (n.getD (r.pending.items.length + 1)) r

end Recorder

end Keystroke
