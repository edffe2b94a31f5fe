import Keystroke.Proofs.Trace.Lines

namespace Keystroke.Trace

open Json Event

variable {e e' : Event} {c c' : CodePoint}

theorem member_append_inj (hs : ∀ t ∈ e.source, t.NoSurrogate) (hs' : ∀ t ∈ e'.source, t.NoSurrogate)
    {f : Field} {r r' : Bytes} (hr : AfterValue r) (hr' : AfterValue r')
    (h : Utf8.bytes (member e c f) ++ r = Utf8.bytes (member e' c' f) ++ r') :
    fieldToken e c f = fieldToken e' c' f ∧ r = r' := by
  rw [bytes_member, bytes_member, List.append_assoc, List.append_assoc] at h
  have hvalue := List.append_cancel_left h
  have ht := token?_valueText hs c f hr
  rw [hvalue, token?_valueText hs' c' f hr'] at ht
  obtain ⟨ht, hrest⟩ := Prod.mk.inj (Option.some.inj ht)
  exact ⟨ht.symm, hrest.symm⟩

/-- Members in a row are told apart one after the other: behind each stands a comma, behind the last the
brace. -/
theorem joined_members_inj (hs : ∀ t ∈ e.source, t.NoSurrogate) (hs' : ∀ t ∈ e'.source, t.NoSurrogate)
    {f : Field} {fs : List Field} {r r' : Bytes}
    (h : Utf8.bytes (Text.joined "," ((f :: fs).map (member e c))) ++ 0x7D :: r =
      Utf8.bytes (Text.joined "," ((f :: fs).map (member e' c'))) ++ 0x7D :: r') :
    ∀ g ∈ f :: fs, fieldToken e c g = fieldToken e' c' g := by
  induction fs generalizing f with
  | nil =>
      obtain ⟨ht, -⟩ := member_append_inj hs hs' (.brace r) (.brace r') h
      exact List.forall_mem_singleton.2 ht
  | cons g fs ih =>
      rw [joined_members, joined_members, List.append_assoc, List.append_assoc] at h
      obtain ⟨ht, hrest⟩ := member_append_inj hs hs' (.comma _) (.comma _) h
      exact List.forall_mem_cons.2 ⟨ht, ih (List.cons.inj hrest).2⟩

theorem fieldToken_eq_of_recordBytes (hs : ∀ t ∈ e.source, t.NoSurrogate)
    (hs' : ∀ t ∈ e'.source, t.NoSurrogate) (h : recordBytes e c = recordBytes e' c') (f : Field) :
    fieldToken e c f = fieldToken e' c' f := by
  rw [recordBytes_eq, recordBytes_eq] at h
  exact joined_members_inj hs hs' (List.cons.inj h).2 f f.mem_all

theorem number_ofInt_inj {z z' : Int} (h : Token.number (.ofInt z) = .number (.ofInt z')) : z = z' := by
  have hl := congrArg Literal.integer (Token.number.inj h)
  rwa [Literal.integer_ofInt, Literal.integer_ofInt] at hl

theorem source_eq_of_fieldToken (hs : ∀ t ∈ e.source, t.NoSurrogate)
    (hs' : ∀ t ∈ e'.source, t.NoSurrogate) (h : fieldToken e c .source = fieldToken e' c' .source) :
    e.source = e'.source := by
  have ht := sourceOf_fieldToken hs c
  rw [h, sourceOf_fieldToken hs' c'] at ht
  exact (Except.ok.inj ht).symm

theorem record_inj (he : e.Encodable) (he' : e'.Encodable) (h : record e = record e') : e = e' := by
  obtain ⟨c, hc⟩ := he.exists_char
  obtain ⟨c', hc'⟩ := he'.exists_char
  rw [record_eq hc, record_eq hc'] at h
  have ht := fieldToken_eq_of_recordBytes he.source he'.source h
  have hkind : e.kind = e'.kind := number_ofInt_inj (ht .kind)
  have hpart (f : IntField) : part e c f = part e' c' f := number_ofInt_inj (ht (.int f))
  have hchar : e.char = e'.char := by
    rw [hc, hc', CodePoint.ext (Int.ofNat.inj (hpart .char))]
  have hsource := source_eq_of_fieldToken he.source he'.source (ht .source)
  cases e
  cases e'
  simp only [Event.mk.injEq]
  exact ⟨hkind, hpart .time, hpart .modifiers, hpart .rawCode, hpart .keyCode, hchar, hpart .location,
    hsource⟩

theorem map_record_inj {es es' : List Event} (h : ∀ e ∈ es, e.Encodable) (h' : ∀ e ∈ es', e.Encodable)
    (hr : es.map record = es'.map record) : es = es' := by
  induction es generalizing es' with
  | nil => exact (List.map_eq_nil_iff.1 hr.symm).symm
  | cons e es ih =>
      obtain ⟨e', es', rfl, he, hes⟩ := List.map_eq_cons_iff.1 hr.symm
      obtain ⟨hx, hxs⟩ := List.forall_mem_cons.1 h
      obtain ⟨hx', hxs'⟩ := List.forall_mem_cons.1 h'
      rw [record_inj hx hx' he.symm, ih hxs hxs' hes.symm]

theorem trace_inj {es es' : List Event} (h : ∀ e ∈ es, e.Encodable) (h' : ∀ e ∈ es', e.Encodable)
    (ht : trace es = trace es') : es = es' := by
  have hl := congrArg lines ht
  rw [lines_trace_self, lines_trace_self] at hl
  exact map_record_inj h h' hl

theorem exists_text_trace {es : List Event} (h : ∀ e ∈ es, e.Encodable) :
    ∃ t : Text, t.NoSurrogate ∧ trace es = Utf8.bytes t := by
  induction es with
  | nil => exact ⟨[], by simp [Text.NoSurrogate], rfl⟩
  | cons e es ih =>
      obtain ⟨he, hes⟩ := List.forall_mem_cons.1 h
      obtain ⟨c, hc⟩ := he.exists_char
      obtain ⟨t, ht, htrace⟩ := ih hes
      have hfeed : Text.NoSurrogate "\n" := by decide
      have hrecord := noSurrogate_recordText_iff (c := c).2 he.source
      refine ⟨recordText e c ++ "\n" ++ t,
        Text.noSurrogate_append.2 ⟨Text.noSurrogate_append.2 ⟨hrecord, hfeed⟩, ht⟩, ?_⟩
      rw [Utf8.bytes_append, Utf8.bytes_append, ← htrace, trace, List.flatMap_cons, record_eq hc]
      rfl

theorem eq_feed_of_mem_trace {es : List Event} {b : UInt8} (hb : b ∈ trace es) (h : b < 0x20) :
    b = 0x0A := by
  obtain ⟨e, -, hb⟩ := List.mem_flatMap.1 hb
  rcases List.mem_append.1 hb with hb | hb
  · exact absurd (le_of_mem_record hb) (Nat.not_le.2 h)
  · exact List.mem_singleton.1 hb

theorem count_feed_trace (es : List Event) : (trace es).count 0x0A = es.length := by
  induction es with
  | nil => rfl
  | cons e es ih =>
      have hrecord : (record e).count 0x0A = 0 :=
        List.count_eq_zero.2 fun hb => absurd (le_of_mem_record hb) (by decide)
      have htrace : trace (e :: es) = record e ++ [0x0A] ++ trace es := rfl
      rw [htrace, List.count_append, List.count_append, hrecord, ih, List.length_cons, Nat.zero_add,
        List.count_singleton_self, Nat.add_comm]

theorem encode_singleton (h : e.Encodable) : encode [e] = .ok (record e ++ [0x0A]) :=
  encode_eq_ok_iff.2 ⟨List.forall_mem_singleton.2 h, (trace_singleton e).symm⟩

/-- No other events have the same trace. It is UTF-8, has no control character but one line feed an event,
and splits into the records of the events. -/
theorem encode_unambiguous {events : List Event} {data : Bytes} (h : encode events = .ok data) :
    (∀ events', encode events' = .ok data → events' = events) ∧
      (∃ t, Utf8.decode? data = some t) ∧
      data.count 0x0A = events.length ∧ (∀ b ∈ data, b < 0x20 → b = 0x0A) ∧
      data = (lines data).flatMap (· ++ [0x0A]) ∧
      events.map (fun e => encode [e]) = (lines data).map fun line => .ok (line ++ [0x0A]) := by
  obtain ⟨he, rfl⟩ := encode_eq_ok_iff.1 h
  refine ⟨?_, ?_, count_feed_trace events, fun b => eq_feed_of_mem_trace, ?_, ?_⟩
  · intro events' h'
    obtain ⟨he', ht⟩ := encode_eq_ok_iff.1 h'
    exact trace_inj he' he ht.symm
  · obtain ⟨t, ht, htrace⟩ := exists_text_trace he
    exact ⟨t, Utf8.decode?_eq_some_iff.2 ⟨ht, htrace⟩⟩
  · rw [lines_trace_self, List.flatMap_map, trace]
  · rw [lines_trace_self, List.map_map]
    exact List.map_congr_left fun e hm => encode_singleton (he e hm)

/-- Events that are written and not read: one of a foreign kind, with half of a pair as its character and
line ends in its source, and a typed one whose key code was corrected. -/
def refused : List Event :=
  [⟨2403, 18446744073709551616, -5, 0, 65, [⟨0xDFFF, by decide⟩], 1, some "null\"\n\r\t\\é\u2028"⟩,
    Event.correct ⟨2400, 7, 0, 0, 0, "a", 0, none⟩ (.keyCode 65)]

theorem encode_unambiguous_refused :
    ∃ data, encode refused = .ok data ∧ (∀ depth, ∃ x, decode depth data = .error x) ∧
      (∀ events', encode events' = .ok data → events' = refused) ∧
      (∃ t, Utf8.decode? data = some t) ∧
      data.count 0x0A = 2 ∧ (∀ b ∈ data, b < 0x20 → b = 0x0A) ∧ (lines data).length = 2 := by
  have he : ∀ e ∈ refused, e.Encodable := by decide
  have h : encode refused = .ok (trace refused) := encode_eq_ok_iff.2 ⟨he, rfl⟩
  obtain ⟨hunique, htext, hfeeds, hlow, -, hrecords⟩ := encode_unambiguous h
  refine ⟨_, h, fun depth => ?_, hunique, htext, hfeeds, hlow, ?_⟩
  · obtain ⟨r, hr⟩ := decodeLines_record_error (he _ (.head _)) (by decide) 1 (refused.tail.map record)
    exact ⟨_, by rw [decode, lines_trace_self]; exact hr⟩
  · have hlength := congrArg List.length hrecords
    rw [List.length_map, List.length_map] at hlength
    exact hlength.symm

end Keystroke.Trace
