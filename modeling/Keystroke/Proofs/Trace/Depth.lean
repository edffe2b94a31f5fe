import Keystroke.Proofs.Trace.LineByLine
import Keystroke.Proofs.Trace.LineText

namespace Keystroke.Trace

open Json

variable {depth depth' : Nat}

-- By induction on the calls. A bracket takes a level from both readers, so the one that has more is never
-- out of levels first.
theorem skipAt_of_le {fuel : Nat} (h : depth ≤ depth') {p : Place} {s : Bytes}
    (hs : skipAt p fuel depth s ≠ .error .tooDeep) :
    skipAt p fuel depth' s = skipAt p fuel depth s := by
  induction fuel generalizing depth depth' p s with
  | zero =>
      cases p with
      | value => rfl
      | items n => cases n <;> rfl
  | succ fuel ih =>
      cases p with
      | value =>
          cases ht : token? (skipSpace s) with
          | none => rw [skipAt_none ht, skipAt_none ht]
          | some q =>
              obtain ⟨t, r⟩ := q
              rcases exists_nest_or t with ⟨n, rfl⟩ | hn
              · cases depth with
                | zero => exact absurd (skipAt_zero ht fuel) hs
                | succ depth =>
                    obtain ⟨depth', rfl⟩ : ∃ d, depth' = d + 1 := ⟨depth' - 1, by omega⟩
                    rw [skipAt_nest ht] at hs
                    rw [skipAt_nest ht, skipAt_nest ht]
                    cases hc : mark? n.close r with
                    | some r' => rfl
                    | none =>
                        rw [hc] at hs
                        exact ih (Nat.le_of_succ_le_succ h) hs
              · rw [skipAt_plain ht hn, skipAt_plain ht hn]
      | items n =>
          cases hi : n.item? s with
          | none =>
              rw [skipAt_items, skipAt_items, hi]
              rfl
          | some v =>
              have hv := ih h fun he => hs (skipAt_item_error hi he)
              cases hx : skipAt .value fuel depth v with
              | error x => rw [skipAt_item_error hi hx, skipAt_item_error hi (hv.trans hx)]
              | ok r =>
                  rw [skipAt_item_ok hi hx] at hs
                  rw [skipAt_item_ok hi hx, skipAt_item_ok hi (hv.trans hx)]
                  cases hm : mark? ',' r with
                  | none => rfl
                  | some r' =>
                      rw [hm] at hs
                      exact ih h hs

theorem readMember_of_le (h : depth ≤ depth') {d : Draft} {s : Bytes}
    (hs : readMember depth d s ≠ .error .tooDeep) :
    readMember depth' d s = readMember depth d s := by
  cases hk : key? s with
  | none => rw [readMember_no_key hk, readMember_no_key hk]
  | some p =>
      obtain ⟨key, r⟩ := p
      cases hf : fieldOf? key with
      | none =>
          rw [readMember_unknown hk hf] at hs
          have hskip : skip depth' r = skip depth r := by
            rw [skip_eq, skip_eq]
            refine skipAt_of_le h fun he => hs ?_
            rw [skip_eq, he]
            rfl
          rw [readMember_unknown hk hf, readMember_unknown hk hf, hskip]
      | some f => rw [readMember_field hk hf, readMember_field hk hf]

theorem readMembers_of_le (h : depth ≤ depth') {fuel : Nat} {d : Draft} {s : Bytes}
    (hs : readMembers depth fuel d s ≠ .error .tooDeep) :
    readMembers depth' fuel d s = readMembers depth fuel d s := by
  induction fuel generalizing d s with
  | zero => rfl
  | succ fuel ih =>
      rw [readMembers] at hs
      rw [readMembers, readMembers]
      have hm : readMember depth' d s = readMember depth d s := by
        refine readMember_of_le h fun he => hs ?_
        rw [he]
        rfl
      rw [hm]
      cases hr : readMember depth d s with
      | error x => rfl
      | ok q =>
          obtain ⟨d', r⟩ := q
          rw [hr] at hs
          simp only [bind, Except.bind] at hs ⊢
          cases hc : mark? ',' r with
          | none => rfl
          | some r' =>
              rw [hc] at hs
              exact ih hs

theorem readEvent_of_le (h : depth ≤ depth') {line : Bytes}
    (hs : readEvent depth line ≠ .error .tooDeep) : readEvent depth' line = readEvent depth line := by
  have hrecord : readRecord depth' line = readRecord depth line := by
    have hs : readRecord depth line ≠ .error .tooDeep := by
      intro he
      refine hs ?_
      rw [readEvent, he]
      rfl
    cases ht : token? (skipSpace line) with
    | none =>
        rw [readRecord, readRecord, ht]
        rfl
    | some p =>
        obtain ⟨t, s⟩ := p
        cases t with
        | null | bool | number | string | array =>
            rw [readRecord, readRecord, ht]
            rfl
        | object =>
            cases hc : mark? '\x7d' s with
            | some r =>
                rw [readRecord, readRecord, ht]
                simp only [orSyntax, hc, bind, Except.bind, pure, Except.pure]
            | none =>
                rw [readRecord_open ht hc] at hs
                rw [readRecord_open ht hc, readRecord_open ht hc]
                refine congrArg closeRecord (readMembers_of_le h fun he => hs ?_)
                rw [he]
                rfl
  rw [readEvent, readEvent, hrecord]

theorem decodeLines_of_le (h : depth ≤ depth') {n : Nat} {ls : List Bytes}
    (hs : decodeLines depth n ls ≠ .error .tooDeep) :
    decodeLines depth' n ls = decodeLines depth n ls := by
  induction ls generalizing n with
  | nil => rfl
  | cons line ls ih =>
      cases hb : isBlankLine line with
      | true =>
          rw [decodeLines_of_blank hb] at hs
          rw [decodeLines_of_blank hb, decodeLines_of_blank hb, ih hs]
      | false =>
          have hline : readEvent depth' line = readEvent depth line := by
            refine readEvent_of_le h fun he => hs ?_
            rw [decodeLines_of_error hb he]
            rfl
          cases he : readEvent depth line with
          | error x => rw [decodeLines_of_error hb he, decodeLines_of_error hb (hline.trans he)]
          | ok e =>
              rw [decodeLines_of_ok hb he] at hs
              rw [decodeLines_of_ok hb he, decodeLines_of_ok hb (hline.trans he), ih]
              intro hr
              refine hs ?_
              rw [hr]
              rfl

/-- A reader that may go deeper reads the same, unless the other ran out of levels. -/
theorem decode_of_le (h : depth ≤ depth') {data : Bytes} (hs : decode depth data ≠ .error .tooDeep) :
    decode depth' data = decode depth data :=
  decodeLines_of_le h hs

def behindMember (key : Text) (value : Bytes) (e : Event) (c : CodePoint) : Bytes :=
  0x7B :: (Utf8.bytes (string key) ++ 0x3A :: (value ++
    0x2C :: (Utf8.bytes (Text.joined "," (Field.all.map (member e c))) ++ [0x7D])))

theorem mark?_brace_string (key : Text) (r : Bytes) :
    mark? '\x7d' (Utf8.bytes (string key) ++ r) = none := by
  rw [bytes_string]
  rfl

theorem readRecord_behindMember {key : Text} (hk : key.NoSurrogate)
    (hf : fieldOf? (Utf8.bytes key) = none) {value : Bytes} (hv : ValueText depth value) {e : Event}
    (hs : ∀ t ∈ e.source, t.NoSurrogate) (c : CodePoint) :
    readRecord depth (behindMember key value e c) = readRecord depth (recordBytes e c) := by
  have hlength := length_le_joined e c Field.all
  rw [readRecord_recordBytes hs, behindMember, readRecord_open rfl (mark?_brace_string key _)]
  obtain ⟨fuel, hfuel⟩ : ∃ n, (Utf8.bytes (string key) ++ 0x3A :: (value ++
      0x2C :: (Utf8.bytes (Text.joined "," (Field.all.map (member e c))) ++ [0x7D]))).length = n + 1 := by
    rw [bytes_string]
    exact ⟨_, rfl⟩
  have hskip : skip depth (value ++
      0x2C :: (Utf8.bytes (Text.joined "," (Field.all.map (member e c))) ++ [0x7D])) = .ok _ :=
    skip_append (p := []) (by simp [Spaces]) hv (endsNumber_comma _)
  have hcomma (r : Bytes) : mark? ',' (0x2C :: r) = some r := rfl
  rw [hfuel, readMembers, readMember_unknown (key?_string hk _) hf, hskip]
  simp only [Except.map, bind, Except.bind, hcomma]
  apply closeRecord_joined hs c
  simp only [List.length_append, List.length_cons] at hfuel
  omega

def brackets (n : Nat) : Bytes := List.replicate n 0x5B ++ List.replicate n 0x5D

theorem valueText_brackets {n : Nat} (h : n < depth) : ValueText depth (brackets (n + 1)) := by
  obtain ⟨depth, rfl⟩ : ∃ d, depth = d + 1 := ⟨depth - 1, by omega⟩
  induction n generalizing depth with
  | zero => exact .empty .array (s := []) (by simp [Spaces])
  | succ n ih =>
      obtain ⟨depth, rfl⟩ : ∃ d, depth = d + 1 := ⟨depth - 1, by omega⟩
      have hb : brackets (n + 2) = 0x5B :: (brackets (n + 1) ++ [0x5D]) := by
        rw [brackets, brackets, List.replicate_succ, List.replicate_succ' (n := n + 1), List.cons_append,
          List.append_assoc]
      have hspaces : Spaces [] := by simp [Spaces]
      rw [hb]
      exact .nested (.last .array hspaces (ih depth (by omega)) hspaces)

theorem tooDeep_brackets_of_lt {n : Nat} (h : depth < n) (r : Bytes) :
    TooDeep .value depth (brackets n ++ r) := by
  obtain ⟨k, rfl⟩ : ∃ k, n = depth + 1 + k := ⟨n - depth - 1, by omega⟩
  rw [brackets, ← List.replicate_append_replicate (n := depth + 1), List.append_assoc, List.append_assoc]
  exact tooDeep_brackets depth _

def deepTrace (n : Nat) (e : Event) (c : CodePoint) : Bytes := behindMember "x" (brackets n) e c

section DeepTrace

variable {e : Event} {c : CodePoint} {n : Nat}

theorem noLineEnd_deepTrace (n : Nat) (e : Event) (c : CodePoint) : NoLineEnd (deepTrace n e c) := by
  have hrecord := noLineEnd_recordBytes e c
  rw [recordBytes_eq] at hrecord
  obtain ⟨-, hmembers⟩ := List.forall_mem_cons.1 hrecord
  have hname : NoLineEnd (Utf8.bytes (string "x")) := by decide
  have hbrackets : NoLineEnd (brackets n) := by
    intro b hb
    rcases List.mem_append.1 hb with hb | hb <;> rw [List.eq_of_mem_replicate hb] <;> decide
  refine List.forall_mem_cons.2 ⟨by decide, List.forall_mem_append.2 ⟨hname, ?_⟩⟩
  refine List.forall_mem_cons.2 ⟨by decide, List.forall_mem_append.2 ⟨hbrackets, ?_⟩⟩
  exact List.forall_mem_cons.2 ⟨by decide, hmembers⟩

theorem decode_deepTrace (h : e.Recordable) (hc : e.char = [c]) (hn : n < depth) :
    decode depth (deepTrace (n + 1) e c) = .ok [e] := by
  apply decode_line_ok (noLineEnd_deepTrace (n + 1) e c) rfl
  rw [readEvent, deepTrace, readRecord_behindMember (by decide) (by decide) (valueText_brackets hn) h.source,
    ← readEvent]
  exact readEvent_recordBytes h hc

theorem decode_deepTrace_tooDeep (e : Event) (c : CodePoint) (hn : depth < n) :
    decode depth (deepTrace n e c) = .error .tooDeep := by
  have hfield : ∀ f ∈ Field.all, Utf8.bytes "x" ≠ Utf8.bytes f.name := by decide
  have hopen : Reaches depth (deepTrace n e c) {} _ := .first rfl (mark?_brace_string "x" _)
  have hstops : StopsTooDeep depth (deepTrace n e c) :=
    ⟨_, _, hopen, Utf8.bytes "x", _, key?_string (by decide) _, fun f => hfield f f.mem_all,
      tooDeep_brackets_of_lt hn _⟩
  exact decode_line_error (noLineEnd_deepTrace n e c) rfl (readEvent_tooDeep_iff.2 hstops)

end DeepTrace

end Keystroke.Trace
