import Keystroke.Proofs.Trace.Lines

namespace Keystroke.Trace

open Event

variable {depth : Nat}

theorem decodeLines_findIdx {events : List Event} (h : ∀ e ∈ events, e.Encodable)
    (hn : ∃ e ∈ events, ¬ e.Recordable) (n : Nat) (rest : List Bytes) :
    ∃ r, decodeLines depth n (events.map record ++ rest) =
      .error (.badRecord (events.findIdx (fun e => ¬ e.Recordable) + n) r) := by
  induction events generalizing n with
  | nil =>
      obtain ⟨e, he, -⟩ := hn
      cases he
  | cons e es ih =>
      obtain ⟨he, hes⟩ := List.forall_mem_cons.1 h
      rw [List.map_cons, List.cons_append, List.findIdx_cons]
      by_cases hr : e.Recordable
      · have hn' : ∃ e ∈ es, ¬ e.Recordable := by
          obtain ⟨x, hx, hxn⟩ := hn
          rcases List.mem_cons.1 hx with rfl | hx
          · exact absurd hr hxn
          · exact ⟨x, hx, hxn⟩
        obtain ⟨r, ih⟩ := ih hes hn' (n + 1)
        refine ⟨r, ?_⟩
        rw [decodeLines_record hr, ih]
        simp only [hr, not_true_eq_false, decide_false, cond_false, Except.map]
        rw [Nat.add_right_comm, Nat.add_assoc]
      · obtain ⟨r, hd⟩ := decodeLines_record_error he hr n (es.map record ++ rest)
        refine ⟨r, ?_⟩
        rw [hd]
        simp only [hr, not_false_eq_true, decide_true, cond_true, Nat.zero_add]

theorem encode_decode (depth : Nat) (events : List Event) :
    ((∃ data, encode events = .ok data) ↔ ∀ e ∈ events, e.Encodable) ∧
      ∀ data, encode events = .ok data →
        ((∀ e ∈ events, e.Recordable) → decode depth data = .ok events) ∧
        ((∃ e ∈ events, ¬ e.Recordable) → ∃ r, decode depth data =
          .error (.badRecord (events.findIdx (fun e => ¬ e.Recordable) + 1) r)) := by
  constructor
  · constructor
    · rintro ⟨data, h⟩
      exact (encode_eq_ok_iff.1 h).1
    · intro h
      exact ⟨trace events, encode_eq_ok_iff.2 ⟨h, rfl⟩⟩
  · intro data h
    obtain ⟨he, rfl⟩ := encode_eq_ok_iff.1 h
    constructor
    · exact decode_trace
    · intro hn
      have hl := lines_trace events []
      rw [List.append_nil] at hl
      obtain ⟨r, hd⟩ := decodeLines_findIdx he hn 1 []
      rw [decode, hl]
      exact ⟨r, hd⟩

/-- A typed event survives until its key code is corrected. -/
theorem encode_decode_corrected :
    ∃ press type : Event, pressed 65 (-5) 0 0 noChar 1 (some "é") = .ok press ∧
      typed "a" 7 = .ok type ∧
      (∃ data, encode [press, type] = .ok data ∧ decode usualDepth data = .ok [press, type]) ∧
      ∃ data r, encode [press, type.correct (.keyCode 65)] = .ok data ∧
        decode usualDepth data = .error (.badRecord 2 r) := by
  refine ⟨⟨2401, -5, 0, 0, 65, noChar, 1, some "é"⟩, ⟨2400, 7, 0, 0, 0, "a", 0, none⟩, rfl, rfl, ?_, ?_⟩
  · obtain ⟨hencode, hdecode⟩ := encode_decode usualDepth
      [⟨2401, -5, 0, 0, 65, noChar, 1, some "é"⟩, ⟨2400, 7, 0, 0, 0, "a", 0, none⟩]
    obtain ⟨data, hd⟩ := hencode.2 (by decide)
    exact ⟨data, hd, (hdecode data hd).1 (by decide)⟩
  · obtain ⟨hencode, hdecode⟩ := encode_decode usualDepth
      [⟨2401, -5, 0, 0, 65, noChar, 1, some "é"⟩, ⟨2400, 7, 0, 0, 65, "a", 0, none⟩]
    obtain ⟨data, hd⟩ := hencode.2 (by decide)
    obtain ⟨r, hr⟩ := (hdecode data hd).2 (by decide)
    exact ⟨data, r, hd, hr⟩

theorem encode_tooLong :
    ∃ e : Event, pressed 65 1 0 Numeral.tooLong = .ok e ∧ e.char.length = 1 ∧
      (∀ t ∈ e.source, t.NoSurrogate) ∧ encode [e] = .error (.tooManyDigits ⟨⟩) := by
  refine ⟨⟨2401, 1, 0, Numeral.tooLong, 65, noChar, 0, none⟩, rfl, rfl, nofun, ?_⟩
  have hmem : Numeral.tooLong ∈ integers ⟨2401, 1, 0, Numeral.tooLong, 65, noChar, 0, none⟩ := by
    simp [integers]
  rw [encode, encodeLine_of_not_fewDigits rfl hmem Numeral.not_fewDigits_tooLong]
  rfl

end Keystroke.Trace
