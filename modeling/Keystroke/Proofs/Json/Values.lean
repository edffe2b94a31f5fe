import Keystroke.Proofs.Json.Members
import Keystroke.Proofs.Json.Pairs
import Keystroke.Proofs.Json.Strings

namespace Keystroke.Json

open CodeUnit

inductive Value.Unpaired : Value → Prop
  | null : Unpaired null
  | bool (b : Bool) : Unpaired (bool b)
  | integer (n : Int) : Unpaired (integer n)
  | real (x : Binary64) : Unpaired (real x)
  | string {t : Text} (h : t.NoPair) : Unpaired (string t)
  | array {vs : List Value} (h : ∀ v ∈ vs, Unpaired v) : Unpaired (array vs)
  | object {ms : List (Text × Value)} (hk : ∀ m ∈ ms, m.1.NoPair) (hv : ∀ m ∈ ms, Unpaired m.2) :
      Unpaired (object ms)

/-- What is read has a property, and no surrogate is in what follows it. -/
def Reads {α : Type} (P : α → Prop) (x : Except Fault (α × Text)) : Prop :=
  ∀ a r, x = .ok (a, r) → P a ∧ Text.NoSurrogate r

theorem eq_some_of_orFault {α : Type} {x : Option α} {a : α} (h : orFault x = .ok a) :
    x = some a := by
  cases x with
  | none => cases h
  | some b => exact congrArg some (Except.ok.inj h)

theorem noSurrogate_skipSpace {s : Text} (h : s.NoSurrogate) : Text.NoSurrogate (skipSpace s) :=
  fun c hc => h c ((List.dropWhile_sublist _).subset hc)

theorem fromText_of_closedString {b : Text} {ps : List (Piece CodePoint)} (h : ClosedString b ps)
    (hb : b.NoSurrogate) : FromText ps := by
  induction h with
  | close => simp [FromText]
  | plain _ _ _ _ ih =>
      obtain ⟨hc, hb⟩ := List.forall_mem_cons.1 hb
      intro d hd
      rcases List.mem_cons.1 hd with he | hd
      · cases he
        exact hc
      · exact ih hb d hd
  | letter _ _ _ _ ih =>
      obtain ⟨-, hb⟩ := List.forall_mem_cons.1 hb
      obtain ⟨-, hb⟩ := List.forall_mem_cons.1 hb
      intro d hd
      exact ih hb d ((List.mem_cons.1 hd).resolve_left nofun)
  | @unit c e a₁ a₂ a₃ a₄ _ _ _ _ _ _ _ ih =>
      obtain ⟨-, hs⟩ := (Text.noSurrogate_append (s := [c, e, a₁, a₂, a₃, a₄])).1 hb
      intro d hd
      exact ih hs d ((List.mem_cons.1 hd).resolve_left nofun)

theorem reads_stringAt {s : Text} (h : s.NoSurrogate) : Reads Text.NoPair (stringAt s) := by
  intro t r ht
  obtain ⟨⟨ps, r'⟩, hp, ht⟩ := exists_of_bind ht
  cases ht
  obtain ⟨b, hb, rfl⟩ := pieces?_eq_some_iff.1 (eq_some_of_orFault hp)
  obtain ⟨hsb, hr⟩ := Text.noSurrogate_append.1 h
  exact ⟨noPair_stringText (fromText_of_closedString hb hsb), hr⟩

theorem exists_of_after? {σ : Type} [CodeUnit σ] {w : List Char} {s r : List σ}
    (h : after? w s = some r) : ∃ b, s = b ++ r := by
  induction w generalizing s with
  | nil => exact ⟨[], Option.some.inj h⟩
  | cons c w ih =>
      cases s with
      | nil => cases h
      | cons x s =>
          rw [after?] at h
          split at h
          · obtain ⟨b, rfl⟩ := ih h
            exact ⟨x :: b, rfl⟩
          · cases h

theorem reads_scalar {s : Text} (h : s.NoSurrogate) : Reads Value.Unpaired (scalar s) := by
  intro v r hv
  rw [scalar] at hv
  split at hv
  · rename_i found hf
    cases hv
    obtain ⟨⟨w, v'⟩, hw, hf⟩ := List.exists_of_findSome?_eq_some hf
    obtain ⟨r', hr, he⟩ := Option.map_eq_some_iff.1 hf
    cases he
    obtain ⟨b, rfl⟩ := exists_of_after? hr
    refine ⟨?_, (Text.noSurrogate_append.1 h).2⟩
    simp only [words, List.mem_cons, Prod.mk.injEq, List.not_mem_nil, or_false] at hw
    rcases hw with ⟨-, rfl⟩ | ⟨-, rfl⟩ | ⟨-, rfl⟩ | ⟨-, rfl⟩ | ⟨-, rfl⟩ | ⟨-, rfl⟩ <;> constructor
  · obtain ⟨⟨l, r'⟩, hl, hv⟩ := exists_of_bind hv
    obtain ⟨v', hn, hv⟩ := exists_of_bind hv
    cases hv
    obtain ⟨b, -, rfl⟩ := number?_sound (eq_some_of_orFault hl)
    refine ⟨?_, (Text.noSurrogate_append.1 h).2⟩
    rw [Value.ofNumber] at hn
    split at hn
    · split at hn
      · cases hn
      · cases hn
        exact .integer _
    · cases hn
      exact .real _

theorem noSurrogate_of_next {s r : Text} {c : CodePoint} (h : s.NoSurrogate) (hn : next s = .ok (c, r)) :
    Text.NoSurrogate r := by
  have hs := noSurrogate_skipSpace h
  rw [skipSpace_of_next hn] at hs
  exact (List.forall_mem_cons.1 hs).2

theorem mem_putMember {key : Text} {v : Value} {ms : List (Text × Value)} {m : Text × Value}
    (h : m ∈ Value.putMember key v ms) : m = (key, v) ∨ m ∈ ms := by
  induction ms with
  | nil => exact .inl (List.mem_singleton.1 h)
  | cons n ms ih =>
      rw [Value.putMember] at h
      split at h
      · exact (List.mem_cons.1 h).imp_right (List.mem_cons_of_mem n)
      · rcases List.mem_cons.1 h with rfl | h
        · exact .inr List.mem_cons_self
        · exact (ih h).imp_right (List.mem_cons_of_mem n)

theorem Value.Unpaired.putMember {ms : List (Text × Value)} (h : Unpaired (.object ms)) {key : Text}
    (hk : key.NoPair) {v : Value} (hv : v.Unpaired) : Unpaired (.object (putMember key v ms)) := by
  cases h with
  | object hks hvs =>
      refine .object (fun m hm => ?_) fun m hm => ?_
      · rcases mem_putMember hm with rfl | hm
        · exact hk
        · exact hks m hm
      · rcases mem_putMember hm with rfl | hm
        · exact hv
        · exact hvs m hm

section Step

variable {fuel : Nat}
  (hvalue : ∀ depth (s : Text), s.NoSurrogate → Reads Value.Unpaired (valueAt fuel depth s))
  (helements : ∀ depth (s : Text), s.NoSurrogate →
    Reads (fun vs => ∀ v ∈ vs, v.Unpaired) (elementsAt fuel depth s))
  (hmembers : ∀ depth done (s : Text), s.NoSurrogate → Value.Unpaired (.object done) →
    Reads (fun ms => Value.Unpaired (.object ms)) (membersAt fuel depth done s))

include helements hmembers in
theorem reads_valueAt_succ (depth : Nat) {s : Text} (h : s.NoSurrogate) :
    Reads Value.Unpaired (valueAt (fuel + 1) depth s) := by
  intro v r hv
  rcases valueAt_cases hv with
    ⟨s', t, rfl, ht, rfl⟩ | ⟨s', ms, rfl, rfl, hms⟩ | ⟨s', vs, rfl, rfl, hvs⟩ | hv
  · obtain ⟨ht, hr⟩ := reads_stringAt (List.forall_mem_cons.1 h).2 t r ht
    exact ⟨.string ht, hr⟩
  · have hs := (List.forall_mem_cons.1 h).2
    have hnone : Value.Unpaired (.object []) := .object (by simp) (by simp)
    rcases hms with ⟨hc, rfl⟩ | hms
    · exact ⟨hnone, noSurrogate_of_next hs hc⟩
    · exact hmembers _ _ _ hs hnone ms r hms
  · have hs := (List.forall_mem_cons.1 h).2
    rcases hvs with ⟨hc, rfl⟩ | hvs
    · exact ⟨.array (by simp), noSurrogate_of_next hs hc⟩
    · obtain ⟨hvs, hr⟩ := helements _ _ hs vs r hvs
      exact ⟨.array hvs, hr⟩
  · exact reads_scalar h v r hv

include hvalue helements in
theorem reads_elementsAt_succ (depth : Nat) {s : Text} (h : s.NoSurrogate) :
    Reads (fun vs => ∀ v ∈ vs, v.Unpaired) (elementsAt (fuel + 1) depth s) := by
  intro vs r hvs
  rw [elementsAt] at hvs
  obtain ⟨⟨v, r₁⟩, hv, hvs⟩ := exists_of_bind hvs
  obtain ⟨hv, h₁⟩ := hvalue depth _ (noSurrogate_skipSpace h) v r₁ hv
  obtain ⟨⟨c, r₂⟩, hc, hvs⟩ := exists_of_bind hvs
  have h₂ := noSurrogate_of_next h₁ hc
  dsimp only at hvs
  split at hvs
  · cases hvs
    exact ⟨List.forall_mem_singleton.2 hv, h₂⟩
  split at hvs
  · obtain ⟨⟨vs', r'⟩, hr, hvs⟩ := exists_of_bind hvs
    cases hvs
    obtain ⟨hvs', hr⟩ := helements depth _ h₂ vs' _ hr
    exact ⟨List.forall_mem_cons.2 ⟨hv, hvs'⟩, hr⟩
  · cases hvs

include hvalue in
theorem reads_memberAt {depth : Nat} {s r : Text} {m : Text × Value} {c : CodePoint} (h : s.NoSurrogate)
    (hm : memberAt fuel depth s = .ok (m, c, r)) : m.1.NoPair ∧ m.2.Unpaired ∧ Text.NoSurrogate r := by
  obtain ⟨⟨q, r₁⟩, hq, hm⟩ := exists_of_bind hm
  have h₁ := noSurrogate_of_next h hq
  dsimp only at hm
  split at hm
  · cases hm
  obtain ⟨⟨key, r₂⟩, hkey, hm⟩ := exists_of_bind hm
  obtain ⟨hkey, h₂⟩ := reads_stringAt h₁ key r₂ hkey
  obtain ⟨⟨d, r₃⟩, hd, hm⟩ := exists_of_bind hm
  have h₃ := noSurrogate_of_next h₂ hd
  dsimp only at hm
  split at hm
  · cases hm
  obtain ⟨⟨v, r₄⟩, hv, hm⟩ := exists_of_bind hm
  obtain ⟨hv, h₄⟩ := hvalue depth _ (noSurrogate_skipSpace h₃) v r₄ hv
  obtain ⟨⟨e, r₅⟩, he, hm⟩ := exists_of_bind hm
  cases hm
  exact ⟨hkey, hv, noSurrogate_of_next h₄ he⟩

include hvalue hmembers in
theorem reads_membersAt_succ (depth : Nat) {done : List (Text × Value)} {s : Text} (h : s.NoSurrogate)
    (hdone : Value.Unpaired (.object done)) :
    Reads (fun ms => Value.Unpaired (.object ms)) (membersAt (fuel + 1) depth done s) := by
  intro ms r hms
  rw [membersAt_succ] at hms
  obtain ⟨⟨⟨key, v⟩, c, r'⟩, hm, hms⟩ := exists_of_bind hms
  obtain ⟨hkey, hv, hr⟩ := reads_memberAt hvalue h hm
  have hput := hdone.putMember hkey hv
  dsimp only at hms
  split at hms
  · cases hms
    exact ⟨hput, hr⟩
  split at hms
  · exact hmembers depth _ _ hr hput ms r hms
  · cases hms

end Step

/-- Nothing that is read holds a pair in two halves. -/
theorem reads_fuel (fuel : Nat) :
    (∀ depth (s : Text), s.NoSurrogate → Reads Value.Unpaired (valueAt fuel depth s)) ∧
    (∀ depth (s : Text), s.NoSurrogate →
      Reads (fun vs => ∀ v ∈ vs, v.Unpaired) (elementsAt fuel depth s)) ∧
    (∀ depth done (s : Text), s.NoSurrogate → Value.Unpaired (.object done) →
      Reads (fun ms => Value.Unpaired (.object ms)) (membersAt fuel depth done s)) := by
  induction fuel with
  | zero =>
      refine ⟨fun depth s _ v r hv => ?_, fun depth s _ vs r hv => ?_, fun depth done s _ _ ms r hv => ?_⟩
      · cases hv
      · cases hv
      · cases hv
  | succ fuel ih =>
      obtain ⟨hvalue, helements, hmembers⟩ := ih
      exact ⟨fun depth s hs => reads_valueAt_succ helements hmembers depth hs,
        fun depth s hs => reads_elementsAt_succ hvalue helements depth hs,
        fun depth done s hs hd => reads_membersAt_succ hvalue hmembers depth hs hd⟩

theorem unpaired_of_parse {t : Text} {v : Value} (ht : t.NoSurrogate) (h : parse t = .ok v) :
    v.Unpaired := by
  obtain ⟨⟨v', r⟩, hv, h⟩ := exists_of_bind h
  dsimp only at h
  split at h
  · cases h
    exact ((reads_fuel _).1 _ _ (noSurrogate_skipSpace ht) v _ hv).1
  · cases h

end Keystroke.Json
