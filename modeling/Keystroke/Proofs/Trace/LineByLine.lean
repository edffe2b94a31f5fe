import Keystroke.Proofs.Trace.Faults
import Keystroke.Proofs.Trace.Lines

namespace Keystroke.Trace

open Json

variable {depth : Nat}

def Accepted (depth : Nat) (line : Bytes) : Prop := ∃ events, decode depth line = .ok events

theorem decode_blank {line : Bytes} (h : NoLineEnd line) (hb : isBlankLine line = true) :
    decode depth line = .ok [] := by
  by_cases hne : line = []
  · subst hne
    rfl
  · rw [decode, lines_of_noLineEnd h hne, decodeLines_of_blank hb]
    rfl

theorem decode_line_ok {line : Bytes} (h : NoLineEnd line) (hb : isBlankLine line = false) {e : Event}
    (he : readEvent depth line = .ok e) : decode depth line = .ok [e] := by
  have hne : line ≠ [] := by
    rintro rfl
    cases hb
  rw [decode, lines_of_noLineEnd h hne, decodeLines_of_ok hb he]
  rfl

theorem decode_line_error {line : Bytes} (h : NoLineEnd line) (hb : isBlankLine line = false)
    {x : LineFault} (he : readEvent depth line = .error x) : decode depth line = .error (.ofFault 1 x) := by
  have hne : line ≠ [] := by
    rintro rfl
    cases hb
  rw [decode, lines_of_noLineEnd h hne, decodeLines_of_error hb he]

/-- Lines are decoded one by one, up to the first that is not accepted. -/
theorem decodeLines_cases {ls : List Bytes} (h : ∀ l ∈ ls, NoLineEnd l) (n : Nat) :
    (∃ events, decodeLines depth n ls = .ok events ∧
      (ls.filter fun l => !isBlankLine l).map (decode depth) = events.map fun e => .ok [e]) ∨
    ∃ before line after x, ls = before ++ line :: after ∧ (∀ l ∈ before, Accepted depth l) ∧
      isBlankLine line = false ∧ ¬ Accepted depth line ∧ readEvent depth line = .error x ∧
      decodeLines depth n ls = .error (.ofFault (before.length + n) x) := by
  induction ls generalizing n with
  | nil => exact .inl ⟨[], rfl, rfl⟩
  | cons l ls ih =>
      obtain ⟨hl, hls⟩ := List.forall_mem_cons.1 h
      have ih := ih hls (n + 1)
      cases hb : isBlankLine l with
      | true =>
          rw [decodeLines_of_blank hb]
          rcases ih with ⟨events, hd, he⟩ | ⟨before, line, after, x, rfl, hbefore, hline⟩
          · exact .inl ⟨events, hd, by simp [hb, he]⟩
          · refine .inr ⟨l :: before, line, after, x, rfl, ?_, ?_⟩
            · exact List.forall_mem_cons.2 ⟨⟨[], decode_blank hl hb⟩, hbefore⟩
            · rwa [List.length_cons, Nat.add_assoc, Nat.add_comm 1]
      | false =>
          cases he : readEvent depth l with
          | error x =>
              have hd := decode_line_error hl hb he
              refine .inr ⟨[], l, ls, x, rfl, by simp, hb, ?_, he, ?_⟩
              · rintro ⟨events, ho⟩
                rw [hd] at ho
                cases ho
              · rw [decodeLines_of_error hb he, List.length_nil, Nat.zero_add]
          | ok e =>
              have hd := decode_line_ok hl hb he
              rw [decodeLines_of_ok hb he]
              rcases ih with ⟨events, hr, hes⟩ |
                ⟨before, line, after, x, rfl, hbefore, hblank, hnot, hx, hr⟩
              · refine .inl ⟨e :: events, by rw [hr]; rfl, ?_⟩
                simp only [hb, Bool.not_false, List.filter_cons_of_pos, List.map_cons, hd, hes]
              · refine .inr ⟨l :: before, line, after, x, rfl, ?_, hblank, hnot, hx, ?_⟩
                · exact List.forall_mem_cons.2 ⟨⟨[e], hd⟩, hbefore⟩
                · rw [hr, List.length_cons, Nat.add_assoc, Nat.add_comm 1]
                  rfl

theorem decode_lines (depth : Nat) (data : Bytes) :
    (∃ events, decode depth data = .ok events ∧
      ((lines data).filter fun l => !isBlankLine l).map (decode depth) = events.map fun e => .ok [e]) ∨
    ∃ before line after, lines data = before ++ line :: after ∧ (∀ l ∈ before, Accepted depth l) ∧
      isBlankLine line = false ∧ ¬ Accepted depth line ∧
      (decode depth data = .error .sourceNotUtf8 ↔ StopsAtSource depth line) ∧
      (decode depth data = .error .tooDeep ↔ StopsTooDeep depth line) ∧
      (¬ StopsAtSource depth line → ¬ StopsTooDeep depth line →
        ∃ r, decode depth data = .error (.badRecord (before.length + 1) r)) := by
  rcases decodeLines_cases (noLineEnd_lines data) 1 with
    h | ⟨before, line, after, x, hlines, hbefore, hblank, hnot, hx, hd⟩
  · exact .inl h
  · refine .inr ⟨before, line, after, hlines, hbefore, hblank, hnot, ?_, ?_, ?_⟩
    · rw [← readEvent_sourceNotUtf8_iff, hx, decode, hd]
      cases x <;> simp [DecodeError.ofFault]
    · rw [← readEvent_tooDeep_iff, hx, decode, hd]
      cases x <;> simp [DecodeError.ofFault]
    · intro hsource hdeep
      rw [← readEvent_sourceNotUtf8_iff, hx] at hsource
      rw [← readEvent_tooDeep_iff, hx] at hdeep
      rw [decode, hd]
      cases x with
      | reason r => exact ⟨r, rfl⟩
      | sourceNotUtf8 => exact absurd rfl hsource
      | tooDeep => exact absurd rfl hdeep

def oneMember (key : Text) (value : Bytes) : Bytes :=
  0x7B :: (Utf8.bytes (string key) ++ 0x3A :: (value ++ [0x7D]))

theorem reaches_oneMember (key : Text) (value : Bytes) :
    Reaches depth (oneMember key value) {} (Utf8.bytes (string key) ++ 0x3A :: (value ++ [0x7D])) := by
  apply Reaches.first rfl
  rw [bytes_string]
  rfl

theorem noLineEnd_oneMember {key : Text} {value : Bytes} (hk : NoLineEnd (Utf8.bytes (string key)))
    (hv : NoLineEnd value) : NoLineEnd (oneMember key value) := by
  intro b hb
  simp only [oneMember, List.mem_cons, List.mem_append, List.not_mem_nil, or_false] at hb
  rcases hb with rfl | hb | rfl | hb | rfl
  · decide
  · exact hk b hb
  · decide
  · exact hv b hb
  · decide

theorem decode_source {b : Bytes} (hb : ∀ x ∈ b, 0x20 ≤ x.toNat ∧ x.toNat ≠ 0x22 ∧ x.toNat ≠ 0x5C)
    (hn : Utf8.decode? b = none) :
    decode depth (oneMember "source" (0x22 :: (b ++ [0x22]))) = .error .sourceNotUtf8 := by
  have hname : NoLineEnd (Utf8.bytes (string "source")) := by decide
  have hends : NoLineEnd (0x22 :: (b ++ [0x22])) := by
    have plain (x : UInt8) (hx : 0x20 ≤ x.toNat) : x ≠ 0x0A ∧ x ≠ 0x0D := by
      constructor
      · rintro rfl
        exact absurd hx (by decide)
      · rintro rfl
        exact absurd hx (by decide)
    intro x hx
    rcases List.mem_cons.1 hx with rfl | hx
    · exact plain _ (by decide)
    rcases List.mem_append.1 hx with hx | hx
    · exact plain x (hb x hx).1
    · rw [List.mem_singleton.1 hx]
      exact plain _ (by decide)
  have hstring : token? (skipSpace (0x22 :: (b ++ [0x22]) ++ [0x7D])) = some (.string b, [0x7D]) := by
    have h : StringOf (b ++ [0x22]) b := by
      have h := StringOf.plain hb .close
      rwa [List.append_nil] at h
    rw [List.cons_append, token?_quote, string?_eq_some_iff.2 ⟨_, h, rfl⟩]
    rfl
  have hstops : StopsAtSource depth (oneMember "source" (0x22 :: (b ++ [0x22]))) :=
    ⟨_, _, reaches_oneMember _ _, _, b, _, key?_string (by decide) _, hstring, hn⟩
  exact decode_line_error (noLineEnd_oneMember hname hends) rfl (readEvent_sourceNotUtf8_iff.2 hstops)

theorem decode_unknown {value : Bytes} (hv : NoLineEnd value)
    (h : TooDeep .value depth (value ++ [0x7D])) :
    decode depth (oneMember "x" value) = .error .tooDeep := by
  have hname : NoLineEnd (Utf8.bytes (string "x")) := by decide
  have hfield : ∀ f ∈ Field.all, Utf8.bytes "x" ≠ Utf8.bytes f.name := by decide
  have hstops : StopsTooDeep depth (oneMember "x" value) :=
    ⟨_, _, reaches_oneMember _ _, Utf8.bytes "x", _, key?_string (by decide) _,
      fun f => hfield f f.mem_all, h⟩
  exact decode_line_error (noLineEnd_oneMember hname hv) rfl (readEvent_tooDeep_iff.2 hstops)

/-- Two faults are reported without the number of a line. -/
theorem decode_unnumbered :
    decode usualDepth (oneMember "source" [0x22, 0xFF, 0x22]) = .error .sourceNotUtf8 ∧
      decode usualDepth (oneMember "x" (List.replicate (usualDepth + 1) 0x5B)) = .error .tooDeep := by
  constructor
  · refine decode_source (b := [0xFF]) ?_ (by decide)
    intro x hx
    rw [List.mem_singleton.1 hx]
    decide
  · apply decode_unknown
    · intro b hb
      rw [List.eq_of_mem_replicate hb]
      decide
    · exact tooDeep_brackets usualDepth [0x7D]

end Keystroke.Trace
