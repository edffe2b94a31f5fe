import Keystroke.Proofs.Result
import Keystroke.Proofs.Trace.Alphabet
import Keystroke.Proofs.Trace.Values
import Keystroke.Trace

namespace Keystroke.Trace

variable {depth : Nat}

/-- The line of an event without its line feed, if the event has one. -/
def record (e : Event) : Bytes :=
  match e.char with
  | [c] => recordBytes e c
  | _ => []

def trace (events : List Event) : Bytes := events.flatMap fun e => record e ++ [0x0A]

theorem trace_singleton (e : Event) : trace [e] = record e ++ [0x0A] := List.flatMap_singleton ..

theorem record_eq {e : Event} {c : CodePoint} (hc : e.char = [c]) : record e = recordBytes e c := by
  rw [record, hc]

theorem lineText_eq (e : Event) (c : CodePoint) : lineText e c = recordText e c ++ "\n" := by
  have h : ("\x7d\n" : Text) = "\x7d" ++ "\n" := rfl
  rw [lineText, recordText, h]
  simp only [List.append_assoc]

theorem mem_escapedChar_of_isSurrogate {c : CodePoint} (h : c.isSurrogate = true) :
    c ∈ escapedChar c := by
  simp only [CodePoint.isSurrogate, Bool.and_eq_true, decide_eq_true_eq] at h
  rcases escapedChar_cases c with ⟨p, hp, rfl, -⟩ | ⟨hlt, -⟩ | ⟨-, -, -, he⟩
  · have : ∀ p ∈ Json.escapes, (CodePoint.ofChar p.2).val < 0xD800 := by decide
    have := this p hp
    omega
  · omega
  · simp [he]

theorem noSurrogate_recordText_iff {e : Event} {c : CodePoint} :
    (recordText e c).NoSurrogate ↔ ∀ t ∈ e.source, t.NoSurrogate := by
  constructor
  · intro h t ht x hx
    rw [← Bool.not_eq_true]
    intro hs
    have hm : x ∈ member e c .source := by
      rw [member, valueText, Option.mem_def.1 ht, sourceText, string]
      simp only [List.mem_append, List.mem_flatMap]
      exact .inr (.inl (.inr ⟨x, hx, mem_escapedChar_of_isSurrogate hs⟩))
    have hf : member e c .source ∈ Field.all.map (member e c) :=
      List.mem_map_of_mem Field.source.mem_all
    have := h x (by simp [recordText, mem_joined_of_mem hf hm])
    rw [hs] at this
    cases this
  · intro h x hx
    rcases mem_recordText hx with hg | ⟨t, ht, hxt, -⟩
    · exact hg.not_surrogate
    · exact h t ht x hxt

theorem encode?_lineText {e : Event} {c : CodePoint} (hc : e.char = [c]) :
    Utf8.encode? (lineText e c) =
      if ∀ t ∈ e.source, t.NoSurrogate then some (record e ++ [0x0A]) else none := by
  have hfeed : Text.NoSurrogate "\n" := by decide
  have hline : (lineText e c).NoSurrogate ↔ ∀ t ∈ e.source, t.NoSurrogate := by
    rw [← noSurrogate_recordText_iff (c := c), lineText_eq]
    constructor
    · exact fun h x hx => h x (List.mem_append_left _ hx)
    · exact fun h => List.forall_mem_append.2 ⟨h, hfeed⟩
  split
  · rename_i hs
    rw [Utf8.encode?_bytes (hline.2 hs), lineText_eq, Utf8.bytes_append, record_eq hc]
    rfl
  · rename_i hs
    exact Utf8.encode?_eq_none (mt hline.1 hs)

theorem encodeLine_eq_ok_iff {e : Event} {line : Bytes} :
    encodeLine e = .ok line ↔ e.Encodable ∧ line = record e ++ [0x0A] := by
  constructor
  · intro h
    unfold encodeLine at h
    split at h
    · rename_i c hc
      split at h
      · rename_i hd
        rw [encode?_lineText hc] at h
        split at h
        · rename_i b hb
          cases h
          split at hb
          · rename_i hs
            exact ⟨⟨by rw [hc]; rfl, hs, hd⟩, (Option.some.inj hb).symm⟩
          · cases hb
        · cases h
      · cases h
    · cases h
  · rintro ⟨he, rfl⟩
    obtain ⟨c, hc⟩ := he.exists_char
    have hd : ∀ z ∈ integers e, Numeral.Fits z := he.digits
    simp only [encodeLine, hc, encode?_lineText hc, if_pos hd, if_pos he.source]

theorem encodeLine_of_not_fewDigits {e : Event} {c : CodePoint} (hc : e.char = [c]) {z : Int}
    (hz : z ∈ integers e) (h : ¬ Numeral.FewDigits z) : encodeLine e = .error (.tooManyDigits ⟨⟩) := by
  have hd : ¬ ∀ z ∈ integers e, Numeral.Fits z := fun hd => h (hd z hz)
  simp only [encodeLine, hc, if_neg hd]

theorem encode_cons (e : Event) (es : List Event) :
    encode (e :: es) = (encodeLine e).bind fun line => (encode es).map (line ++ ·) := by
  rw [encode]
  cases encodeLine e with
  | error x => rfl
  | ok line => cases encode es <;> rfl

theorem encode_eq_ok_iff {events : List Event} {data : Bytes} :
    encode events = .ok data ↔ (∀ e ∈ events, e.Encodable) ∧ data = trace events := by
  induction events generalizing data with
  | nil => simp [encode, trace, eq_comm]
  | cons e es ih =>
      rw [encode_cons]
      constructor
      · intro h
        obtain ⟨line, hl, h⟩ := exists_of_bind h
        obtain ⟨he, rfl⟩ := encodeLine_eq_ok_iff.1 hl
        obtain ⟨rest, hr, rfl⟩ := exists_of_map h
        obtain ⟨hes, rfl⟩ := ih.1 hr
        exact ⟨List.forall_mem_cons.2 ⟨he, hes⟩, rfl⟩
      · rintro ⟨h, rfl⟩
        obtain ⟨he, hes⟩ := List.forall_mem_cons.1 h
        rw [encodeLine_eq_ok_iff.2 ⟨he, rfl⟩]
        simp only [Except.bind, ih.2 ⟨hes, rfl⟩, Except.map]
        rfl

def NoLineEnd (line : Bytes) : Prop := ∀ b ∈ line, b ≠ 0x0A ∧ b ≠ 0x0D

instance (line : Bytes) : Decidable (NoLineEnd line) :=
  List.decidableBAll (fun b => b ≠ 0x0A ∧ b ≠ 0x0D) line

theorem lines_cons_of_nil {b : UInt8} (h : b ≠ 0x0A ∧ b ≠ 0x0D) {r : Bytes} (hr : lines r = []) :
    lines (b :: r) = [[b]] := by
  rw [lines.eq_def]
  simp only [h.1, h.2, if_false, hr]

theorem lines_cons_of_cons {b : UInt8} (h : b ≠ 0x0A ∧ b ≠ 0x0D) {r line : Bytes}
    {rest : List Bytes} (hr : lines r = line :: rest) : lines (b :: r) = (b :: line) :: rest := by
  rw [lines.eq_def]
  simp only [h.1, h.2, if_false, hr]

theorem lines_append {line : Bytes} (h : NoLineEnd line) (r : Bytes) :
    lines (line ++ 0x0A :: r) = line :: lines r := by
  induction line with
  | nil =>
      rw [List.nil_append, lines.eq_def]
      simp
  | cons b line ih =>
      obtain ⟨hb, hl⟩ := List.forall_mem_cons.1 h
      exact lines_cons_of_cons hb (ih hl)

theorem lines_of_noLineEnd {line : Bytes} (h : NoLineEnd line) (hne : line ≠ []) :
    lines line = [line] := by
  induction line with
  | nil => exact absurd rfl hne
  | cons b line ih =>
      obtain ⟨hb, hl⟩ := List.forall_mem_cons.1 h
      cases line with
      | nil => exact lines_cons_of_nil hb rfl
      | cons c line => exact lines_cons_of_cons hb (ih hl (List.cons_ne_nil c line))

theorem noLineEnd_nil : NoLineEnd [] := by simp [NoLineEnd]

theorem noLineEnd_lines (data : Bytes) : ∀ line ∈ lines data, NoLineEnd line := by
  fun_induction lines data with
  | case1 => simp
  | case2 r ih => exact List.forall_mem_cons.2 ⟨noLineEnd_nil, ih⟩
  | case3 r _ ih => exact List.forall_mem_cons.2 ⟨noLineEnd_nil, ih⟩
  | case4 c r _ _ ih => exact List.forall_mem_cons.2 ⟨noLineEnd_nil, ih⟩
  | case5 => simp [noLineEnd_nil]
  | case6 b r hf hc _ _ => simp [NoLineEnd, hf, hc]
  | case7 b r hf hc l ls hr ih =>
      rw [hr] at ih
      obtain ⟨hl, hls⟩ := List.forall_mem_cons.1 ih
      exact List.forall_mem_cons.2 ⟨List.forall_mem_cons.2 ⟨⟨hf, hc⟩, hl⟩, hls⟩

theorem le_of_mem_recordBytes {e : Event} {c : CodePoint} {b : UInt8} (hb : b ∈ recordBytes e c) :
    0x20 ≤ b.toNat := by
  refine Nat.not_lt.1 fun hlt => ?_
  obtain ⟨x, hx, hv⟩ := Utf8.exists_of_mem_bytes hb (by omega)
  rcases mem_recordText hx with hg | ⟨t, -, -, hle⟩
  · have := hg.1
    omega
  · omega

theorem le_of_mem_record {e : Event} {b : UInt8} (hb : b ∈ record e) : 0x20 ≤ b.toNat := by
  rw [record] at hb
  split at hb
  · exact le_of_mem_recordBytes hb
  · cases hb

theorem noLineEnd_of_le {line : Bytes} (h : ∀ b ∈ line, 0x20 ≤ b.toNat) : NoLineEnd line := by
  intro b hb
  constructor
  · rintro rfl
    exact absurd (h _ hb) (by decide)
  · rintro rfl
    exact absurd (h _ hb) (by decide)

theorem noLineEnd_recordBytes (e : Event) (c : CodePoint) : NoLineEnd (recordBytes e c) :=
  noLineEnd_of_le fun _ => le_of_mem_recordBytes

theorem noLineEnd_record (e : Event) : NoLineEnd (record e) :=
  noLineEnd_of_le fun _ => le_of_mem_record

theorem lines_trace (events : List Event) (rest : Bytes) :
    lines (trace events ++ rest) = events.map record ++ lines rest := by
  induction events with
  | nil => rfl
  | cons e es ih =>
      have ht : trace (e :: es) ++ rest = record e ++ 0x0A :: (trace es ++ rest) := by
        simp [trace]
      rw [ht, lines_append (noLineEnd_record e), ih]
      rfl

theorem lines_trace_self (events : List Event) : lines (trace events) = events.map record := by
  have h := lines_trace events []
  rwa [List.append_nil, lines, List.append_nil] at h

theorem decodeLines_of_blank {line : Bytes} (h : isBlankLine line = true) (n : Nat)
    (rest : List Bytes) : decodeLines depth n (line :: rest) = decodeLines depth (n + 1) rest := by
  rw [decodeLines, if_pos h]

theorem decodeLines_of_ok {line : Bytes} (h : isBlankLine line = false) {e : Event}
    (he : readEvent depth line = .ok e) (n : Nat) (rest : List Bytes) :
    decodeLines depth n (line :: rest) = (decodeLines depth (n + 1) rest).map (e :: ·) := by
  rw [decodeLines, h, he]
  cases decodeLines depth (n + 1) rest <;> rfl

theorem decodeLines_of_error {line : Bytes} (h : isBlankLine line = false) {fault : LineFault}
    (he : readEvent depth line = .error fault) (n : Nat) (rest : List Bytes) :
    decodeLines depth n (line :: rest) = .error (.ofFault n fault) := by
  rw [decodeLines, h, he]
  rfl

theorem isBlankLine_recordBytes (e : Event) (c : CodePoint) :
    isBlankLine (recordBytes e c) = false := by
  rw [recordBytes_eq, isBlankLine, List.all_cons]
  rfl

theorem decodeLines_record {e : Event} (h : e.Recordable) (n : Nat) (rest : List Bytes) :
    decodeLines depth n (record e :: rest) = (decodeLines depth (n + 1) rest).map (e :: ·) := by
  obtain ⟨c, hc⟩ := h.exists_char
  rw [record_eq hc]
  exact decodeLines_of_ok (isBlankLine_recordBytes e c) (readEvent_recordBytes h hc) n rest

theorem decodeLines_record_error {e : Event} (h : e.Encodable) (hn : ¬ e.Recordable) (n : Nat)
    (rest : List Bytes) : ∃ r, decodeLines depth n (record e :: rest) = .error (.badRecord n r) := by
  obtain ⟨c, hc⟩ := h.exists_char
  obtain ⟨r, hr⟩ := readEvent_recordBytes_error h hn hc
  rw [record_eq hc]
  exact ⟨r, decodeLines_of_error (isBlankLine_recordBytes e c) hr n rest⟩

theorem decodeLines_map_record {events : List Event} (h : ∀ e ∈ events, e.Recordable) (n : Nat)
    (rest : List Bytes) :
    decodeLines depth n (events.map record ++ rest) =
      (decodeLines depth (n + events.length) rest).map (events ++ ·) := by
  induction events generalizing n with
  | nil => cases hr : decodeLines depth n rest <;> simp [hr, Except.map]
  | cons e es ih =>
      obtain ⟨he, hes⟩ := List.forall_mem_cons.1 h
      rw [List.map_cons, List.cons_append, decodeLines_record he, ih hes, List.length_cons,
        Nat.add_right_comm, Nat.add_assoc n es.length 1]
      cases decodeLines depth (n + (es.length + 1)) rest <;> rfl

theorem decode_trace_append {events : List Event} (h : ∀ e ∈ events, e.Recordable) (rest : Bytes) :
    decode depth (trace events ++ rest) =
      (decodeLines depth (events.length + 1) (lines rest)).map (events ++ ·) := by
  rw [decode, lines_trace, decodeLines_map_record h, Nat.add_comm 1]

theorem decode_trace {events : List Event} (h : ∀ e ∈ events, e.Recordable) :
    decode depth (trace events) = .ok events := by
  have hd : decode depth (trace events ++ []) = _ := decode_trace_append h []
  rw [List.append_nil] at hd
  rw [hd]
  simp [lines, decodeLines, Except.map]

end Keystroke.Trace
