import Keystroke.Proofs.Trace.Member

namespace Keystroke.Trace

open Json

variable {depth : Nat}

/-- The reader of a line gets to the member at the front, with this draft of the members before. -/
inductive Reaches (depth : Nat) (line : Bytes) : Draft → Bytes → Prop
  | first {s : Bytes} (ht : token? (skipSpace line) = some (.object, s))
      (hc : mark? '\x7d' s = none) : Reaches depth line {} s
  | next {d d' : Draft} {s r s' : Bytes} (h : Reaches depth line d s)
      (hm : readMember depth d s = .ok (d', r)) (hc : mark? ',' r = some s') : Reaches depth line d' s'

theorem readRecord_of_reaches {line s : Bytes} {d : Draft} (h : Reaches depth line d s) :
    ∃ fuel, s.length ≤ fuel ∧ readRecord depth line = closeRecord (readMembers depth fuel d s) := by
  induction h with
  | first ht hc => exact ⟨_, Nat.le_refl _, readRecord_open ht hc⟩
  | @next _ _ _ _ s' _ hm hc ih =>
      obtain ⟨fuel, hf, hr⟩ := ih
      have := length_readMember hm
      have := length_mark? hc
      obtain ⟨fuel, rfl⟩ : ∃ n, fuel = n + 1 := ⟨fuel - 1, by omega⟩
      refine ⟨fuel, by omega, ?_⟩
      rw [hr, readMembers, hm]
      simp only [bind, Except.bind, hc]

theorem reaches_of_readMembers {line s : Bytes} {d : Draft} {x : LineFault}
    (hx : ∀ r, x ≠ .reason r) (hl : Reaches depth line d s) {fuel : Nat}
    (h : readMembers depth fuel d s = .error x) :
    ∃ d' s', Reaches depth line d' s' ∧ readMember depth d' s' = .error x := by
  induction fuel generalizing d s with
  | zero =>
      cases h
      exact absurd rfl (hx _)
  | succ fuel ih =>
      rw [readMembers] at h
      cases hm : readMember depth d s with
      | error y =>
          rw [hm] at h
          cases h
          exact ⟨d, s, hl, hm⟩
      | ok p =>
          obtain ⟨d', r⟩ := p
          rw [hm] at h
          simp only [bind, Except.bind] at h
          cases hc : mark? ',' r with
          | some s' =>
              rw [hc] at h
              exact ih (hl.next hm hc) h
          | none =>
              rw [hc] at h
              cases hb : mark? '\x7d' r with
              | some r' => rw [hb] at h; cases h
              | none =>
                  rw [hb] at h
                  cases h
                  exact absurd rfl (hx _)

theorem reaches_of_readRecord {line : Bytes} {x : LineFault} (hx : ∀ r, x ≠ .reason r)
    (h : readRecord depth line = .error x) : ∃ d s, Reaches depth line d s ∧ readMember depth d s = .error x := by
  rcases readRecord_cases line with ⟨r, hr⟩ | ⟨r, hr⟩ | ⟨s, ht, hc, hr⟩
  · rw [hr] at h
    cases h
    exact absurd rfl (hx r)
  · rw [hr] at h
    cases closeRecord_fault hx h
  · rw [hr] at h
    exact reaches_of_readMembers hx (.first ht hc) (closeRecord_fault hx h)

theorem readEvent_eq_error_iff {line : Bytes} {x : LineFault} (hx : ∀ r, x ≠ .reason r) :
    readEvent depth line = .error x ↔ ∃ d s, Reaches depth line d s ∧ readMember depth d s = .error x := by
  constructor
  · intro h
    apply reaches_of_readRecord hx
    rw [readEvent] at h
    cases hr : readRecord depth line with
    | error y =>
        rw [hr] at h
        exact congrArg Except.error (Except.error.inj h)
    | ok record =>
        rw [hr] at h
        simp only [bind, Except.bind] at h
        cases he : record.toEvent with
        | ok e => rw [he] at h; cases h
        | error r =>
            rw [he] at h
            cases h
            exact absurd rfl (hx r)
  · rintro ⟨d, s, hl, hm⟩
    obtain ⟨fuel, hf, hr⟩ := readRecord_of_reaches hl
    have hs : 0 < s.length := by
      cases s with
      | nil => cases hm; exact absurd rfl (hx _)
      | cons b s => exact Nat.succ_pos _
    obtain ⟨fuel, rfl⟩ : ∃ n, fuel = n + 1 := ⟨fuel - 1, by omega⟩
    rw [readEvent, hr, readMembers, hm]
    rfl

/-- The line has a source that is no UTF-8 and everything before it is read. -/
def StopsAtSource (depth : Nat) (line : Bytes) : Prop :=
  ∃ d s, Reaches depth line d s ∧ SourceNotUtf8 s

/-- The line has a value that lies too deep and everything before it is read. -/
def StopsTooDeep (depth : Nat) (line : Bytes) : Prop :=
  ∃ d s, Reaches depth line d s ∧ MemberTooDeep depth s

theorem readEvent_sourceNotUtf8_iff {line : Bytes} :
    readEvent depth line = .error .sourceNotUtf8 ↔ StopsAtSource depth line := by
  rw [readEvent_eq_error_iff (by simp)]
  simp only [readMember_sourceNotUtf8_iff, StopsAtSource]

theorem readEvent_tooDeep_iff {line : Bytes} :
    readEvent depth line = .error .tooDeep ↔ StopsTooDeep depth line := by
  rw [readEvent_eq_error_iff (by simp)]
  simp only [readMember_tooDeep_iff, StopsTooDeep]

end Keystroke.Trace
