import Keystroke.Proofs.Trace.Lines

namespace Keystroke.Trace

open Json Numeral

variable {depth : Nat}

/-- What such a reader takes from the front does not depend on what follows it. -/
def Final {α : Type} (read : Bytes → Option (α × Bytes)) : Prop :=
  ∀ ⦃s a r⦄, read s = some (a, r) → ∀ q, read (s ++ q) = some (a, r ++ q)

theorem Final.eq_none_of_cut {α : Type} {read : Bytes → Option (α × Bytes)} (h : Final read)
    {s q : Bytes} {a : α} (hs : read s = some (a, [])) (hq : q <+: s) (hne : q ≠ s) :
    read q = none := by
  cases hr : read q with
  | none => rfl
  | some p =>
      obtain ⟨t, rfl⟩ := hq
      have ht := h hr t
      rw [hs] at ht
      simp only [Option.some.injEq, Prod.mk.injEq, List.nil_eq, List.append_eq_nil_iff] at ht
      rw [ht.2.2, List.append_nil] at hne
      exact absurd rfl hne

theorem final_string? : Final string? := by
  intro s a r h q
  obtain ⟨b, hb, rfl⟩ := string?_eq_some_iff.1 h
  exact string?_eq_some_iff.2 ⟨b, hb, List.append_assoc b r q⟩

theorem mark?_append {c : Char} {s r : Bytes} (h : mark? c s = some r) (q : Bytes) :
    mark? c (s ++ q) = some (r ++ q) := by
  rw [mark?] at h
  split at h
  · rename_i b r' hs
    rw [mark?, skipSpace, List.dropWhile_append]
    rw [skipSpace] at hs
    rw [hs]
    split at h
    · rename_i hb
      cases h
      simp [hb]
    · cases h
  · cases h

theorem final_key? : Final key? := by
  intro s a r h q
  simp only [key?, Option.bind_eq_bind, Option.bind_eq_some_iff, Option.pure_def] at h
  obtain ⟨s₁, hs, ⟨k, s₂⟩, hk, s₃, hm, h⟩ := h
  cases h
  simp only [key?, mark?_append hs, final_string? hk q, mark?_append hm, Option.bind_eq_bind,
    Option.bind_some, Option.pure_def]

theorem prefix_append_cases {l a b : Bytes} (h : l <+: a ++ b) :
    l <+: a ∨ ∃ t, l = a ++ t ∧ t <+: b := by
  rcases List.prefix_or_prefix_of_prefix h (List.prefix_append a b) with hl | ⟨t, rfl⟩
  · exact .inl hl
  · exact .inr ⟨t, rfl, (List.prefix_append_right_inj a).1 h⟩

def TornValue (f : Field) (v : Bytes) : Prop :=
  token? (skipSpace v) = none ∨ ∃ t, token? (skipSpace v) = some (t, []) ∧ Settled f t

theorem token?_sign (negative : Bool) : token? (skipSpace (signBytes negative)) = none := by
  cases negative <;> rfl

-- A numeral that is cut is a shorter numeral, so it is no fault by itself.
theorem tornValue_decimal {f : Field} (hf : f ≠ .source) {z : Int} {v : Bytes}
    (h : v <+: Utf8.bytes (decimal z)) : TornValue f v := by
  rw [bytes_decimal] at h
  generalize z.natAbs = n at h
  generalize decide (z < 0) = negative at h
  rcases prefix_append_cases h with h | ⟨w, rfl, hw⟩
  · have hv : v = [] ∨ v = signBytes negative := by
      cases negative with
      | false => exact .inl (List.prefix_nil.1 h)
      | true =>
          rcases List.prefix_cons_iff.1 h with rfl | ⟨t, rfl, ht⟩
          · exact .inl rfl
          · rw [List.prefix_nil.1 ht]
            exact .inr rfl
    rcases hv with rfl | rfl
    · exact .inl rfl
    · exact .inl (token?_sign negative)
  · obtain ⟨ds, hds, rfl⟩ := List.prefix_map_iff.1 hw
    by_cases hne : ds = []
    · subst hne
      rw [List.map_nil, List.append_nil]
      exact .inl (token?_sign negative)
    · have hn := (isNumeral_digits n).cut hds hne
      have ht := token?_spaces (p := []) (by simp [Spaces]) (.number (numberText_numeral hn negative))
        endsNumber_nil
      rw [List.append_nil, List.nil_append] at ht
      exact .inr ⟨_, ht, settled_of_ne_source hf _⟩

theorem tornValue_source {e : Event} (hs : ∀ t ∈ e.source, t.NoSurrogate) {c : CodePoint} {v : Bytes}
    (h : v <+: Utf8.bytes (valueText e c .source)) : TornValue .source v := by
  have hset := settled_fieldToken hs c .source
  rw [fieldToken] at hset
  rw [valueText] at h
  cases he : e.source with
  | none =>
      rw [he] at h hset
      have hnone : ∀ k < 4, token? (skipSpace ((Utf8.bytes "null").take k)) = none := by decide
      rcases Nat.lt_or_ge v.length 4 with hlt | hle
      · rw [List.prefix_iff_eq_take.1 h]
        exact .inl (hnone v.length hlt)
      · have hv : v = Utf8.bytes "null" := h.eq_of_length (Nat.le_antisymm h.length_le hle)
        subst hv
        exact .inr ⟨.null, rfl, hset⟩
  | some t =>
      rw [he] at h hset
      rw [sourceText, bytes_string] at h
      have hstring := string?_eq_some_iff.2 ⟨_, stringOf_escaped (hs t he), (List.append_nil _).symm⟩
      rcases List.prefix_cons_iff.1 h with rfl | ⟨w, rfl, hw⟩
      · exact .inl rfl
      · rw [TornValue, token?_quote]
        by_cases hv : w = Utf8.bytes (t.flatMap escapedChar) ++ [0x22]
        · subst hv
          rw [hstring]
          exact .inr ⟨_, rfl, hset⟩
        · rw [final_string?.eq_none_of_cut hstring hw hv]
          exact .inl rfl

theorem tornValue_valueText {e : Event} (hs : ∀ t ∈ e.source, t.NoSurrogate) {c : CodePoint}
    {f : Field} {v : Bytes} (h : v <+: Utf8.bytes (valueText e c f)) : TornValue f v := by
  cases f with
  | kind => exact tornValue_decimal (by decide) h
  | int f => cases f <;> exact tornValue_decimal (by simp) h
  | source => exact tornValue_source hs h

theorem readMember_torn {e : Event} (hs : ∀ t ∈ e.source, t.NoSurrogate) {c : CodePoint} {f : Field}
    {q : Bytes} (h : q <+: Utf8.bytes (member e c f)) (d : Draft) :
    (∃ d', readMember depth d q = .ok (d', [])) ∨ ∃ r, readMember depth d q = .error (.reason r) := by
  rw [bytes_member] at h
  have hkey := key?_keyBytes f []
  rw [List.append_nil] at hkey
  by_cases hq : q <+: keyBytes f ∧ q ≠ keyBytes f
  · have hnone := final_key?.eq_none_of_cut hkey hq.1 hq.2
    refine .inr ⟨.syntaxError, ?_⟩
    rw [readMember, hnone]
    rfl
  · obtain ⟨v, rfl, hv⟩ : ∃ v, q = keyBytes f ++ v ∧ v <+: Utf8.bytes (valueText e c f) := by
      rcases prefix_append_cases h with hk | hv
      · have : q = keyBytes f := Classical.not_not.1 fun hne => hq ⟨hk, hne⟩
        exact ⟨[], by rw [this, List.append_nil], List.nil_prefix⟩
      · exact hv
    rw [readMember, key?_keyBytes]
    simp only [orSyntax, fieldOf?_name, bind, Except.bind, pure, Except.pure]
    rcases tornValue_valueText hs hv with hnone | ⟨t, ht, hset⟩
    · rw [hnone]
      exact .inr ⟨.syntaxError, rfl⟩
    · rw [ht]
      rcases hset d with ⟨d', hd⟩ | ⟨r, hr⟩
      · exact .inl ⟨d', by simp only [hd]⟩
      · exact .inr ⟨r, by simp only [hr]⟩

/-- Members that break off are never closed, wherever the cut is. -/
theorem readMembers_torn {e : Event} (hs : ∀ t ∈ e.source, t.NoSurrogate) {c : CodePoint} (f : Field)
    (fs : List Field) {q : Bytes}
    (h : q <+: Utf8.bytes (Text.joined "," ((f :: fs).map (member e c)))) (fuel : Nat) (d : Draft) :
    ∃ r, readMembers depth fuel d q = .error (.reason r) := by
  have inside {f : Field} {q : Bytes} (hq : q <+: Utf8.bytes (member e c f)) (fuel : Nat)
      (d : Draft) : ∃ r, readMembers depth (fuel + 1) d q = .error (.reason r) := by
    rcases readMember_torn hs hq d with ⟨d', hd⟩ | ⟨r, hr⟩
    · refine ⟨.syntaxError, ?_⟩
      rw [readMembers, hd]
      rfl
    · refine ⟨r, ?_⟩
      rw [readMembers, hr]
      rfl
  induction fs generalizing f q fuel d with
  | nil =>
      cases fuel with
      | zero => exact ⟨.syntaxError, rfl⟩
      | succ fuel => exact inside h fuel d
  | cons g fs ih =>
      cases fuel with
      | zero => exact ⟨.syntaxError, rfl⟩
      | succ fuel =>
          rw [joined_members] at h
          rcases prefix_append_cases h with hq | ⟨v, rfl, hv⟩
          · exact inside hq fuel d
          rcases List.prefix_cons_iff.1 hv with rfl | ⟨w, rfl, hw⟩
          · rw [List.append_nil]
            exact inside List.prefix_rfl fuel d
          rw [readMembers, readMember_member hs c d f (.comma w)]
          rcases settled_fieldToken hs c f d with ⟨d', hd⟩ | ⟨r, hr⟩
          · rw [hd]
            exact ih g hw fuel d'
          · exact ⟨r, by rw [hr]; rfl⟩

theorem readEvent_torn {e : Event} (hs : ∀ t ∈ e.source, t.NoSurrogate) {c : CodePoint} {q : Bytes}
    (h : q <+: recordBytes e c) (hne : q ≠ []) (hlt : q ≠ recordBytes e c) :
    ∃ r, readEvent depth q = .error (.reason r) := by
  rw [recordBytes_eq] at h hlt
  obtain ⟨q, rfl⟩ : ∃ p, q = 0x7B :: p := by
    rcases List.prefix_cons_iff.1 h with rfl | ⟨p, rfl, -⟩
    · exact absurd rfl hne
    · exact ⟨p, rfl⟩
  obtain ⟨f, fs, hall⟩ : ∃ f fs, Field.all = f :: fs := ⟨_, _, rfl⟩
  rw [hall] at h hlt
  have hp : q <+: Utf8.bytes (Text.joined "," ((f :: fs).map (member e c))) := by
    rcases List.prefix_concat_iff.1 (List.cons_prefix_cons.1 h).2 with rfl | hp
    · exact absurd rfl hlt
    · exact hp
  have hopen : mark? '\x7d' q = none := by
    cases hm : mark? '\x7d' q with
    | none => rfl
    | some r =>
        obtain ⟨t, ht⟩ := hp
        have := mark?_append hm t
        have hnone := mark?_brace_member e c f fs []
        rw [List.append_nil, ← ht, this] at hnone
        cases hnone
  obtain ⟨r, hr⟩ := readMembers_torn hs f fs hp q.length {}
  refine ⟨r, ?_⟩
  rw [readEvent, readRecord_open rfl hopen, hr]
  rfl

theorem record_ne_nil {e : Event} (h : e.Encodable) : record e ≠ [] := by
  obtain ⟨c, hc⟩ := h.exists_char
  rw [record_eq hc, recordBytes_eq]
  exact List.cons_ne_nil _ _

theorem decodeLines_torn {e : Event} (h : e.Encodable) {q : Bytes} (hq : q <+: record e)
    (hne : q ≠ []) (hlt : q ≠ record e) (n : Nat) :
    ∃ r, decodeLines depth n (lines q) = .error (.badRecord n r) := by
  obtain ⟨c, hc⟩ := h.exists_char
  rw [record_eq hc] at hq hlt
  obtain ⟨r, hr⟩ := readEvent_torn h.source hq hne hlt
  have hends : NoLineEnd q := fun b hb => noLineEnd_recordBytes e c b (hq.subset hb)
  have hblank : isBlankLine q = false := by
    rw [recordBytes_eq] at hq
    rcases List.prefix_cons_iff.1 hq with rfl | ⟨p, rfl, -⟩
    · exact absurd rfl hne
    · rfl
  rw [lines_of_noLineEnd hends hne]
  exact ⟨r, decodeLines_of_error hblank hr n []⟩

end Keystroke.Trace
