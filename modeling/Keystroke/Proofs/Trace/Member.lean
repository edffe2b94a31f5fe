import Keystroke.Proofs.Result
import Keystroke.Proofs.Trace.Skip
import Keystroke.Proofs.Trace.Values

namespace Keystroke.Trace

open Json

variable {depth : Nat}

theorem fieldOf?_eq_some_iff {key : Bytes} {f : Field} :
    fieldOf? key = some f ↔ key = Utf8.bytes f.name := by
  constructor
  · intro h
    have hk := List.find?_some h
    rw [beq_iff_eq, Utf8.encode?_bytes (noSurrogate_name f)] at hk
    exact (Option.some.inj hk).symm
  · rintro rfl
    exact fieldOf?_name f

theorem fieldOf?_eq_none_iff {key : Bytes} :
    fieldOf? key = none ↔ ∀ f : Field, key ≠ Utf8.bytes f.name := by
  rw [Option.eq_none_iff_forall_ne_some]
  exact forall_congr' fun f => not_congr fieldOf?_eq_some_iff

theorem readMember_no_key {s : Bytes} (h : key? s = none) (d : Draft) :
    readMember depth d s = .error (.reason .syntaxError) := by
  rw [readMember, h]
  rfl

theorem readMember_unknown {s key r : Bytes} (h : key? s = some (key, r)) (hf : fieldOf? key = none)
    (d : Draft) : readMember depth d s = (skip depth r).map (d, ·) := by
  rw [readMember, h]
  simp only [orSyntax, hf, bind, Except.bind, pure, Except.pure]
  cases skip depth r <;> rfl

theorem readMember_field {s key r : Bytes} {f : Field} (h : key? s = some (key, r))
    (hf : fieldOf? key = some f) (d : Draft) :
    readMember depth d s = (orSyntax (token? (skipSpace r))).bind fun p =>
      (d.set f p.1).map (·, p.2) := by
  rw [readMember, h]
  simp only [orSyntax, hf, bind, Except.bind, pure, Except.pure]
  cases token? (skipSpace r) with
  | none => rfl
  | some p =>
      simp only
      cases d.set f p.1 <;> rfl

theorem sourceOf_fault {t : Token} {x : LineFault} (h : sourceOf t = .error x) :
    (∃ r, x = .reason r) ∨ x = .sourceNotUtf8 ∧ ∃ b, t = .string b ∧ Utf8.decode? b = none := by
  cases t with
  | string b =>
      rw [sourceOf] at h
      split at h
      · cases h
      · rename_i hb
        cases h
        exact .inr ⟨rfl, b, rfl, hb⟩
  | null => cases h
  | bool | number | array | object => cases h; exact .inl ⟨_, rfl⟩

theorem set_fault {d : Draft} {f : Field} {t : Token} {x : LineFault} (h : d.set f t = .error x) :
    (∃ r, x = .reason r) ∨
      x = .sourceNotUtf8 ∧ f = .source ∧ ∃ b, t = .string b ∧ Utf8.decode? b = none := by
  by_cases hf : f = .source
  · subst hf
    rw [Draft.set] at h
    cases hs : sourceOf t with
    | ok t => rw [hs] at h; cases h
    | error y =>
        rw [hs] at h
        cases h
        rcases sourceOf_fault hs with hr | ⟨rfl, hb⟩
        · exact .inl hr
        · exact .inr ⟨rfl, rfl, hb⟩
  · rcases settled_of_ne_source hf t d with ⟨d', hd⟩ | ⟨r, hr⟩
    · rw [hd] at h
      cases h
    · rw [hr] at h
      cases h
      exact .inl ⟨r, rfl⟩

def SourceNotUtf8 (s : Bytes) : Prop :=
  ∃ r b r', key? s = some (Utf8.bytes Field.source.name, r) ∧
    token? (skipSpace r) = some (.string b, r') ∧ Utf8.decode? b = none

def MemberTooDeep (depth : Nat) (s : Bytes) : Prop :=
  ∃ key r, key? s = some (key, r) ∧ (∀ f : Field, key ≠ Utf8.bytes f.name) ∧
    TooDeep .value depth r

/-- The ways in which a member is not read. -/
theorem readMember_fault {d : Draft} {s : Bytes} {x : LineFault} (h : readMember depth d s = .error x) :
    (∃ r, x = .reason r) ∨ x = .sourceNotUtf8 ∧ SourceNotUtf8 s ∨
      x = .tooDeep ∧ MemberTooDeep depth s := by
  cases hk : key? s with
  | none =>
      rw [readMember_no_key hk] at h
      cases h
      exact .inl ⟨_, rfl⟩
  | some p =>
      obtain ⟨key, r⟩ := p
      cases hf : fieldOf? key with
      | none =>
          rw [readMember_unknown hk hf] at h
          cases hs : skip depth r with
          | ok r' => rw [hs] at h; cases h
          | error y =>
              rw [hs] at h
              cases h
              cases x with
              | reason r => exact .inl ⟨r, rfl⟩
              | sourceNotUtf8 => exact absurd hs (skip_ne_sourceNotUtf8 r)
              | tooDeep =>
                  exact .inr (.inr ⟨rfl, key, r, hk, fieldOf?_eq_none_iff.1 hf,
                    skip_eq_tooDeep_iff.1 hs⟩)
      | some f =>
          rw [readMember_field hk hf] at h
          cases ht : token? (skipSpace r) with
          | none =>
              rw [ht] at h
              cases h
              exact .inl ⟨_, rfl⟩
          | some q =>
              obtain ⟨t, r'⟩ := q
              rw [ht] at h
              simp only [orSyntax, Except.bind] at h
              cases hd : d.set f t with
              | ok d' => rw [hd] at h; cases h
              | error y =>
                  rw [hd] at h
                  cases h
                  rcases set_fault hd with hr | ⟨rfl, rfl, b, rfl, hb⟩
                  · exact .inl hr
                  · rw [fieldOf?_eq_some_iff.1 hf] at hk
                    exact .inr (.inl ⟨rfl, r, b, r', hk, ht, hb⟩)

theorem readMember_sourceNotUtf8_iff {d : Draft} {s : Bytes} :
    readMember depth d s = .error .sourceNotUtf8 ↔ SourceNotUtf8 s := by
  constructor
  · intro h
    rcases readMember_fault h with ⟨r, hr⟩ | ⟨-, hs⟩ | ⟨hd, -⟩
    · cases hr
    · exact hs
    · cases hd
  · rintro ⟨r, b, r', hk, ht, hb⟩
    rw [readMember_field hk (fieldOf?_name .source), ht]
    simp only [orSyntax, Except.bind, Draft.set, sourceOf, hb]
    rfl

theorem readMember_tooDeep_iff {d : Draft} {s : Bytes} :
    readMember depth d s = .error .tooDeep ↔ MemberTooDeep depth s := by
  constructor
  · intro h
    rcases readMember_fault h with ⟨r, hr⟩ | ⟨hs, -⟩ | ⟨-, hd⟩
    · cases hr
    · cases hs
    · exact hd
  · rintro ⟨key, r, hk, hf, hd⟩
    rw [readMember_unknown hk (fieldOf?_eq_none_iff.2 hf), skip_eq_tooDeep_iff.2 hd]
    rfl

theorem eq_some_of_orSyntax {α : Type} {x : Option α} {a : α} (h : orSyntax x = .ok a) :
    x = some a := by
  cases x with
  | none => cases h
  | some b => exact congrArg some (Except.ok.inj h)

/-- The ways in which a member is read: skipped, or taken into its field. -/
theorem readMember_ok {d d' : Draft} {s r' : Bytes} (h : readMember depth d s = .ok (d', r')) :
    ∃ key r, key? s = some (key, r) ∧
      (fieldOf? key = none ∧ d' = d ∧ skip depth r = .ok r' ∨
        ∃ f t, fieldOf? key = some f ∧ token? (skipSpace r) = some (t, r') ∧ d.set f t = .ok d') := by
  rw [readMember] at h
  obtain ⟨⟨key, r⟩, hk, h⟩ := exists_of_bind h
  refine ⟨key, r, eq_some_of_orSyntax hk, ?_⟩
  simp only at h
  cases hf : fieldOf? key with
  | none =>
      rw [hf] at h
      obtain ⟨r', hs, h⟩ := exists_of_bind h
      cases h
      exact .inl ⟨rfl, rfl, hs⟩
  | some f =>
      rw [hf] at h
      obtain ⟨⟨t, r'⟩, ht, h⟩ := exists_of_bind h
      obtain ⟨d', hd, h⟩ := exists_of_bind h
      cases h
      exact .inr ⟨f, t, rfl, eq_some_of_orSyntax ht, hd⟩

theorem length_readMember {d d' : Draft} {s r : Bytes} (h : readMember depth d s = .ok (d', r)) :
    r.length < s.length := by
  obtain ⟨key, v, hk, ⟨-, -, hs⟩ | ⟨f, t, -, ht, -⟩⟩ := readMember_ok h
  · exact Nat.lt_trans (skip_eq_ok_iff.1 hs).length_lt (length_key? hk)
  · exact Nat.lt_trans (length_value_token? ht) (length_key? hk)

theorem readRecord_cases (line : Bytes) :
    (∃ r, readRecord depth line = .error (.reason r)) ∨
      (∃ r, readRecord depth line = closeRecord (.ok ({}, r))) ∨
      ∃ s, token? (skipSpace line) = some (.object, s) ∧ mark? '\x7d' s = none ∧
        readRecord depth line = closeRecord (readMembers depth s.length {} s) := by
  cases ht : token? (skipSpace line) with
  | none =>
      refine .inl ⟨.syntaxError, ?_⟩
      rw [readRecord, ht]
      rfl
  | some p =>
      obtain ⟨t, s⟩ := p
      by_cases hobject : t = .object
      · subst hobject
        cases hc : mark? '\x7d' s with
        | none => exact .inr (.inr ⟨s, rfl, hc, readRecord_open ht hc⟩)
        | some r =>
            refine .inr (.inl ⟨r, ?_⟩)
            rw [readRecord, ht]
            simp only [orSyntax, hc, closeRecord, bind, Except.bind, pure, Except.pure]
      · refine .inl ⟨unexpected none t, ?_⟩
        rw [readRecord, ht]
        cases t with
        | object => exact absurd rfl hobject
        | null | bool | number | string | array => rfl

theorem closeRecord_fault {x : Except LineFault (Draft × Bytes)} {y : LineFault}
    (hy : ∀ r, y ≠ .reason r) (h : closeRecord x = .error y) : x = .error y := by
  cases x with
  | error z => exact congrArg Except.error (Except.error.inj h)
  | ok p =>
      simp only [closeRecord, Except.bind] at h
      cases hf : p.1.finish with
      | error r =>
          rw [hf] at h
          cases h
          exact absurd rfl (hy r)
      | ok record =>
          rw [hf] at h
          change (if skipSpace _ = [] then _ else _) = _ at h
          split at h
          · cases h
          · cases h
            exact absurd rfl (hy _)

theorem closeRecord_ok {x : Except LineFault (Draft × Bytes)} {record : Record}
    (h : closeRecord x = .ok record) :
    ∃ d r, x = .ok (d, r) ∧ d.finish = .ok record ∧ skipSpace r = [] := by
  rw [closeRecord] at h
  obtain ⟨⟨d, r⟩, hx, h⟩ := exists_of_bind h
  obtain ⟨record', hf, h⟩ := exists_of_bind h
  split at h
  · cases h
    exact ⟨d, r, hx, eq_ok_of_mapError hf, ‹_›⟩
  · cases h

end Keystroke.Trace
