import Keystroke.Proofs.Trace.Line

namespace Keystroke.Trace

open Json Numeral Event

variable {depth : Nat}

theorem kindOf_code (k : Kind) : kindOf (.number (.ofInt k.code)) = .ok k := by
  cases k <;> rfl

theorem kindOf_eq_error {z : Int} (h : ¬ (z = 2400 ∨ z = 2401 ∨ z = 2402)) :
    ∃ r, kindOf (.number (.ofInt z)) = .error r := by
  have hk : Kind.ofCode? z = none := by
    simp only [not_or] at h
    simp [Kind.ofCode?, Kind.all, Kind.code, Ne.symm h.1, Ne.symm h.2.1, Ne.symm h.2.2]
  rw [kindOf]
  split
  · rw [Literal.integer_ofInt, hk]
    exact ⟨_, rfl⟩
  · exact ⟨_, rfl⟩

theorem intOf_ofInt (f : IntField) (z : Int) :
    intOf f (.number (.ofInt z)) = if Short z then .ok z else .error (.integerTooLong f) := by
  simp only [intOf, Literal.isInteger_ofInt, Literal.integerLength_ofInt, Literal.integer_ofInt,
    integerLimit, if_true]
  by_cases h : Short z
  · rw [if_pos h, if_neg (Nat.not_lt.2 h)]
  · rw [if_neg h, if_pos (Nat.not_le.1 h)]

theorem sourceOf_fieldToken {e : Event} (hs : ∀ t ∈ e.source, t.NoSurrogate) (c : CodePoint) :
    sourceOf (fieldToken e c .source) = .ok e.source := by
  rw [fieldToken]
  cases h : e.source with
  | none => rfl
  | some t => simp only [sourceOf, Utf8.decode?_of_encode? (Utf8.encode?_bytes (hs t h))]

theorem set_int (e : Event) (c : CodePoint) (d : Draft) (f : IntField) :
    d.set (.int f) (fieldToken e c (.int f)) =
      if Short (part e c f) then .ok (d.setInt (part e c f) f)
      else .error (.reason (.integerTooLong f)) := by
  simp only [Draft.set, fieldToken, intOf_ofInt]
  split <;> rfl

theorem set_source {e : Event} (hs : ∀ t ∈ e.source, t.NoSurrogate) (c : CodePoint) (d : Draft) :
    d.set .source (fieldToken e c .source) = .ok { d with source := e.source } := by
  simp only [Draft.set, sourceOf_fieldToken hs]
  rfl

theorem set_kind {e : Event} {k : Kind} (hk : e.kind = k.code) (c : CodePoint) (d : Draft) :
    d.set .kind (fieldToken e c .kind) = .ok { d with kind := k } := by
  simp only [Draft.set, fieldToken, hk, kindOf_code]
  rfl

theorem set_kind_eq_error {e : Event} (h : ¬ (e.kind = 2400 ∨ e.kind = 2401 ∨ e.kind = 2402))
    (c : CodePoint) (d : Draft) : ∃ r, d.set .kind (fieldToken e c .kind) = .error (.reason r) := by
  obtain ⟨r, hr⟩ := kindOf_eq_error h
  exact ⟨r, by simp only [Draft.set, fieldToken, hr]; rfl⟩

theorem exists_kind {z : Int} (h : z = 2400 ∨ z = 2401 ∨ z = 2402) : ∃ k : Kind, z = k.code := by
  rcases h with rfl | rfl | rfl
  · exact ⟨.typed, rfl⟩
  · exact ⟨.pressed, rfl⟩
  · exact ⟨.released, rfl⟩

/-- A token that a field takes or refuses with a reason, whatever was read before it. -/
def Settled (f : Field) (t : Token) : Prop :=
  ∀ d : Draft, (∃ d', d.set f t = .ok d') ∨ ∃ r, d.set f t = .error (.reason r)

theorem settled_of_ne_source {f : Field} (hf : f ≠ .source) (t : Token) : Settled f t := by
  intro d
  cases f with
  | kind =>
      rw [Draft.set]
      cases kindOf t with
      | ok k => exact .inl ⟨_, rfl⟩
      | error r => exact .inr ⟨r, rfl⟩
  | int f =>
      rw [Draft.set]
      cases intOf f t with
      | ok n => exact .inl ⟨_, rfl⟩
      | error r => exact .inr ⟨r, rfl⟩
  | source => exact absurd rfl hf

theorem settled_fieldToken {e : Event} (hs : ∀ t ∈ e.source, t.NoSurrogate) (c : CodePoint)
    (f : Field) : Settled f (fieldToken e c f) := by
  by_cases hf : f = .source
  · subst hf
    intro d
    exact .inl ⟨_, set_source hs c d⟩
  · exact settled_of_ne_source hf _

theorem setAll_eq_error {e : Event} (hs : ∀ t ∈ e.source, t.NoSurrogate) {c : CodePoint} {f : Field}
    (hf : ∀ d : Draft, ∃ r, d.set f (fieldToken e c f) = .error (.reason r)) {fs : List Field}
    (hm : f ∈ fs) (d : Draft) : ∃ r, d.setAll e c fs = .error (.reason r) := by
  induction fs generalizing d with
  | nil => cases hm
  | cons g fs ih =>
      rcases List.mem_cons.1 hm with rfl | hm
      · obtain ⟨r, hr⟩ := hf d
        exact ⟨r, by simp only [Draft.setAll, hr, bind, Except.bind]⟩
      · rcases settled_fieldToken hs c g d with ⟨d', hd⟩ | ⟨r, hr⟩
        · simpa only [Draft.setAll, hd, bind, Except.bind] using ih hm d'
        · exact ⟨r, by simp only [Draft.setAll, hr, bind, Except.bind]⟩

theorem short_codePoint (c : CodePoint) : Short c.val := by
  have hc : c.val < 10 ^ 7 := Nat.lt_trans c.val_lt (by decide)
  have := length_digits_le hc (by decide)
  rw [Short, length_decimal]
  simp only [Int.natAbs_natCast]
  split <;> omega

theorem setAll_all {e : Event} {k : Kind} (hk : e.kind = k.code)
    (hs : ∀ t ∈ e.source, t.NoSurrogate) {c : CodePoint} (hi : ∀ f, Short (part e c f)) :
    Draft.setAll e c {} Field.all = .ok ⟨k, e.time, e.modifiers, e.rawCode, e.keyCode, (c.val : Int),
      e.location, e.source⟩ := by
  simp only [Field.all, Draft.setAll, set_kind hk, set_int, hi, if_true, set_source hs, bind,
    Except.bind]
  rfl

theorem charOf_val (c : CodePoint) : charOf c.val = .ok [c] := by
  have := c.val_lt
  rw [charOf, if_neg (by omega), if_neg (by omega), Int.toNat_natCast, CodePoint.ofNat?_val]

theorem toEvent_eq {e : Event} {k : Kind} (hk : e.kind = k.code) {c : CodePoint} (hc : e.char = [c]) :
    (Record.mk k e.time e.modifiers e.rawCode e.keyCode c.val e.location e.source).toEvent =
      if Allowed e.kind e.keyCode e.char then .ok e
      else .error (.invalidEvent ⟨k.reference, e.keyCode, e.char⟩) := by
  have hv : k.reference.value = e.kind := hk.symm
  simp only [Record.toEvent, charOf_val, bind, Except.bind, create, hv, ← hc]
  split <;> rfl

theorem short_part {e : Event} (h : e.Recordable) (c : CodePoint) (f : IntField) :
    Short (part e c f) := by
  cases f with
  | time => exact h.time
  | modifiers => exact h.modifiers
  | rawCode => exact h.rawCode
  | keyCode => exact h.keyCode
  | char => exact short_codePoint c
  | location => exact h.location

theorem readEvent_of_short {e : Event} {k : Kind} (hk : e.kind = k.code)
    (hs : ∀ t ∈ e.source, t.NoSurrogate) {c : CodePoint} (hc : e.char = [c])
    (hi : ∀ f, Short (part e c f)) :
    readEvent depth (recordBytes e c) =
      if Allowed e.kind e.keyCode e.char then .ok e
      else .error (.reason (.invalidEvent ⟨k.reference, e.keyCode, e.char⟩)) := by
  rw [readEvent, readRecord_recordBytes hs, setAll_all hk hs hi]
  change (Record.mk k e.time e.modifiers e.rawCode e.keyCode c.val e.location
    e.source).toEvent.mapError LineFault.reason = _
  rw [toEvent_eq hk hc]
  split <;> rfl

theorem readEvent_recordBytes {e : Event} (h : e.Recordable) {c : CodePoint} (hc : e.char = [c]) :
    readEvent depth (recordBytes e c) = .ok e := by
  obtain ⟨k, hk⟩ := exists_kind h.kind
  rw [readEvent_of_short hk h.source hc (short_part h c), if_pos h.allowed]

theorem readEvent_recordBytes_error {e : Event} (h : e.Encodable) (hn : ¬ e.Recordable) {c : CodePoint}
    (hc : e.char = [c]) : ∃ r, readEvent depth (recordBytes e c) = .error (.reason r) := by
  by_cases hk : e.kind = 2400 ∨ e.kind = 2401 ∨ e.kind = 2402
  · by_cases hi : ∀ f, Short (part e c f)
    · obtain ⟨k, hk'⟩ := exists_kind hk
      have ha : ¬ Allowed e.kind e.keyCode e.char := by
        intro ha
        exact hn ⟨h.char, h.source, hk, hi .time, hi .modifiers, hi .rawCode, hi .keyCode, hi .location, ha⟩
      rw [readEvent_of_short hk' h.source hc hi, if_neg ha]
      exact ⟨_, rfl⟩
    · obtain ⟨f, hf⟩ := Classical.not_forall.1 hi
      have hlong (d : Draft) : ∃ r, d.set (.int f) (fieldToken e c (.int f)) = .error (.reason r) :=
        ⟨_, by rw [set_int, if_neg hf]⟩
      obtain ⟨r, hr⟩ := setAll_eq_error h.source hlong (Field.int f).mem_all {}
      rw [readEvent, readRecord_recordBytes h.source, hr]
      exact ⟨r, rfl⟩
  · obtain ⟨r, hr⟩ := setAll_eq_error h.source (set_kind_eq_error hk c) Field.kind.mem_all {}
    rw [readEvent, readRecord_recordBytes h.source, hr]
    exact ⟨r, rfl⟩

end Keystroke.Trace
