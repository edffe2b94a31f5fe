import Keystroke.Proofs.Trace.Lines
import Keystroke.Proofs.Trace.Member

namespace Keystroke.Trace

open Json Event

variable {depth : Nat}

namespace Draft

def int? (d : Draft) : IntField → Option Int
  | .time => d.time
  | .modifiers => d.modifiers
  | .rawCode => d.rawCode
  | .keyCode => d.keyCode
  | .char => d.char
  | .location => d.location

/-- What has been read can be written and read again. -/
structure Sound (d : Draft) : Prop where
  short : ∀ f, ∀ n ∈ d.int? f, Short n
  source : ∀ t ∈ d.source, t.NoSurrogate

end Draft

theorem sound_empty : Draft.Sound {} where
  short := by
    intro f n hn
    cases f <;> cases hn
  source := by
    intro t ht
    cases ht

theorem int?_setInt (d : Draft) (n : Int) (f g : IntField) :
    (d.setInt n f).int? g = if g = f then some n else d.int? g := by
  cases f <;> cases g <;> rfl

theorem source_setInt (d : Draft) (n : Int) (f : IntField) : (d.setInt n f).source = d.source := by
  cases f <;> rfl

theorem exists_of_intOf {f : IntField} {t : Token} {z : Int} (h : intOf f t = .ok z) :
    ∃ l : Literal, t = .number l ∧ l.isInteger = true ∧ l.integer = z ∧ l.integerLength ≤ 4300 := by
  cases t with
  | number l =>
      rw [intOf] at h
      split at h
      · rename_i hi
        split at h
        · cases h
        · rename_i hl
          cases h
          exact ⟨l, rfl, hi, rfl, Nat.not_lt.1 hl⟩
      · cases h
  | null | bool | string | array | object => cases h

theorem exists_of_sourceOf {t : Token} {s : Option Text} (h : sourceOf t = .ok s) :
    t = .null ∧ s = none ∨ ∃ u : Text, s = some u ∧ u.NoSurrogate ∧ t = .string (Utf8.bytes u) := by
  cases t with
  | null =>
      cases h
      exact .inl ⟨rfl, rfl⟩
  | string b =>
      rw [sourceOf] at h
      split at h
      · rename_i u hu
        cases h
        obtain ⟨hs, rfl⟩ := Utf8.decode?_eq_some_iff.1 hu
        exact .inr ⟨u, rfl, hs, rfl⟩
      · cases h
  | bool | number | array | object => cases h

-- The limit is on the literal, and no literal is shorter than what is written for its integer.
theorem short_of_intOf {f : IntField} {t : Token} {n : Int} (ht : t.HasDigits)
    (h : intOf f t = .ok n) : Short n := by
  obtain ⟨l, rfl, -, rfl, hlength⟩ := exists_of_intOf h
  obtain ⟨hne, hlt⟩ := ht
  exact Nat.le_trans (Literal.length_decimal_le hlt hne) hlength

theorem noSurrogate_of_sourceOf {t : Token} {s : Option Text} (h : sourceOf t = .ok s) :
    ∀ u ∈ s, u.NoSurrogate := by
  intro u hu
  rcases exists_of_sourceOf h with ⟨-, rfl⟩ | ⟨u, rfl, hs, -⟩
  · cases hu
  · cases hu
    exact hs

theorem Draft.Sound.set {d d' : Draft} (h : d.Sound) {f : Field} {t : Token} (ht : t.HasDigits)
    (hs : d.set f t = .ok d') : d'.Sound := by
  cases f with
  | kind =>
      obtain ⟨k, -, rfl⟩ := exists_of_map hs
      exact ⟨h.short, h.source⟩
  | int f =>
      obtain ⟨n, hn, rfl⟩ := exists_of_map hs
      constructor
      · intro g m hm
        rw [int?_setInt] at hm
        split at hm
        · cases hm
          exact short_of_intOf ht (eq_ok_of_mapError hn)
        · exact h.short g m hm
      · rw [source_setInt]
        exact h.source
  | source =>
      obtain ⟨u, hu, rfl⟩ := exists_of_map hs
      exact ⟨h.short, noSurrogate_of_sourceOf hu⟩

theorem Draft.Sound.readMember {d d' : Draft} (h : d.Sound) {s r : Bytes}
    (hm : readMember depth d s = .ok (d', r)) : d'.Sound := by
  obtain ⟨key, v, -, ⟨-, rfl, -⟩ | ⟨f, t, -, ht, hs⟩⟩ := readMember_ok hm
  · exact h
  · exact h.set (token?_hasDigits ht) hs

theorem Draft.Sound.readMembers {fuel : Nat} {d d' : Draft} (h : d.Sound) {s r : Bytes}
    (hm : readMembers depth fuel d s = .ok (d', r)) : d'.Sound := by
  induction fuel generalizing d s with
  | zero => cases hm
  | succ fuel ih =>
      rw [Trace.readMembers] at hm
      obtain ⟨⟨d₁, s₁⟩, hd, hm⟩ := exists_of_bind hm
      have h₁ := h.readMember hd
      simp only at hm
      split at hm
      · exact ih h₁ hm
      · obtain ⟨s₂, -, hm⟩ := exists_of_bind hm
        cases hm
        exact h₁

theorem finish_eq_ok {d : Draft} {r : Record} (h : d.finish = .ok r) :
    d = ⟨some r.kind, some r.time, some r.modifiers, some r.rawCode, some r.keyCode, some r.char,
      some r.location, r.source⟩ := by
  obtain ⟨kind, time, modifiers, rawCode, keyCode, char, location, source⟩ := d
  -- one missing field after the other is reported, and only then is there a record
  rcases kind with _ | kind
  · cases h
  rcases time with _ | time
  · cases h
  rcases modifiers with _ | modifiers
  · cases h
  rcases rawCode with _ | rawCode
  · cases h
  rcases keyCode with _ | keyCode
  · cases h
  rcases char with _ | char
  · cases h
  rcases location with _ | location
  · cases h
  cases h
  rfl

theorem readRecord_sound {line : Bytes} {r : Record} (h : readRecord depth line = .ok r) :
    Draft.Sound ⟨some r.kind, some r.time, some r.modifiers, some r.rawCode, some r.keyCode,
      some r.char, some r.location, r.source⟩ := by
  rcases readRecord_cases line with ⟨x, hx⟩ | ⟨s, hx⟩ | ⟨s, -, -, hx⟩
  · rw [hx] at h
    cases h
  · rw [hx] at h
    obtain ⟨d, s', hd, hf, -⟩ := closeRecord_ok h
    cases hd
    cases hf
  · rw [hx] at h
    obtain ⟨d, s', hd, hf, -⟩ := closeRecord_ok h
    have hs := sound_empty.readMembers hd
    rwa [finish_eq_ok hf] at hs

theorem exists_of_charOf {n : Int} {t : Text} (h : charOf n = .ok t) :
    ∃ c : CodePoint, t = [c] ∧ n = c.val := by
  rw [charOf] at h
  split at h
  · cases h
  split at h
  · cases h
  split at h
  · rename_i c hc
    cases h
    have := CodePoint.val_of_ofNat? hc
    exact ⟨c, rfl, by omega⟩
  · cases h

theorem kind_code (k : Kind) : k.code = 2400 ∨ k.code = 2401 ∨ k.code = 2402 := by
  cases k <;> decide

theorem readEvent_recordable {line : Bytes} {e : Event} (h : readEvent depth line = .ok e) :
    e.Recordable := by
  rw [readEvent] at h
  obtain ⟨r, hr, h⟩ := exists_of_bind h
  have hs := readRecord_sound hr
  have h := eq_ok_of_mapError h
  rw [Record.toEvent] at h
  obtain ⟨char, hc, h⟩ := exists_of_bind h
  obtain ⟨c, rfl, -⟩ := exists_of_charOf hc
  have h := eq_ok_of_mapError h
  rw [create] at h
  split at h
  · rename_i ha
    cases h
    exact {
      char := rfl
      source := hs.source
      kind := kind_code r.kind
      time := hs.short .time _ rfl
      modifiers := hs.short .modifiers _ rfl
      rawCode := hs.short .rawCode _ rfl
      keyCode := hs.short .keyCode _ rfl
      location := hs.short .location _ rfl
      typed := ha }
  · cases h

theorem decodeLines_recordable {ls : List Bytes} {n : Nat} {events : List Event}
    (h : decodeLines depth n ls = .ok events) : ∀ e ∈ events, e.Recordable := by
  induction ls generalizing n events with
  | nil =>
      cases h
      simp
  | cons l ls ih =>
      cases hb : isBlankLine l with
      | true =>
          rw [decodeLines_of_blank hb] at h
          exact ih h
      | false =>
          cases he : readEvent depth l with
          | error x => rw [decodeLines_of_error hb he] at h; cases h
          | ok e =>
              rw [decodeLines_of_ok hb he] at h
              obtain ⟨es, hes, rfl⟩ := exists_of_map h
              exact List.forall_mem_cons.2 ⟨readEvent_recordable he, ih hes⟩

theorem decode_normal {data : Bytes} {events : List Event} (h : decode depth data = .ok events) :
    (∀ e ∈ events, (e.kind = 2400 ∨ e.kind = 2401 ∨ e.kind = 2402) ∧ e.char.length = 1 ∧
      (∀ t ∈ e.source, t.NoSurrogate) ∧ (e.kind = 2400 → e.keyCode = 0 ∧ e.char ≠ noChar)) ∧
    ∃ normal, encode events = .ok normal ∧ decode depth normal = .ok events ∧
      ∀ again, decode depth normal = .ok again → encode again = .ok normal := by
  have hr := decodeLines_recordable h
  constructor
  · intro e he
    have he := hr e he
    exact ⟨he.kind, he.char, he.source, he.typed⟩
  · have hencode := encode_eq_ok_iff.2 ⟨fun e he => (hr e he).toEncodable, rfl⟩
    have hdecode : decode depth (trace events) = .ok events := decode_trace hr
    refine ⟨trace events, hencode, hdecode, ?_⟩
    intro again hagain
    rw [hdecode] at hagain
    cases hagain
    exact hencode

/-- A blank line, then spaces, escapes, a minus before zero, and members in another order, twice or of
no field. -/
def oddlySpelled : Bytes :=
  Utf8.bytes ("\r\n\x7b \"source\" :\"\\ud83d\\ude00\\/\", \"\\u006bind\":2402,\"when\":-0," ++
    "\"modifiers\":0,\"raw_code\":1,\"x\":[[],\x7b\"y\":1e9\x7d],\"raw_code\":2,\"key_code\":65," ++
    "\"key_char\":55296,\"key_location\":0\t\x7d \r")

theorem decode_normal_oddlySpelled :
    ∃ e normal, decode usualDepth oddlySpelled = .ok [e] ∧ e.rawCode = 2 ∧ e.source = some "😀/" ∧
      encode [e] = .ok normal ∧ normal ≠ oddlySpelled ∧ decode usualDepth normal = .ok [e] := by
  have h : decode usualDepth oddlySpelled =
      .ok [⟨2402, 0, 0, 2, 65, [⟨0xD800, by decide⟩], 0, some "😀/"⟩] := by
    apply eq_ok_of_toOption
    decide +kernel
  obtain ⟨-, normal, hencode, hdecode, -⟩ := decode_normal h
  refine ⟨_, normal, h, rfl, rfl, hencode, ?_, hdecode⟩
  obtain ⟨-, rfl⟩ := encode_eq_ok_iff.1 hencode
  decide +kernel

end Keystroke.Trace
