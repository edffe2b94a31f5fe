import Keystroke.Proofs.Trace.LineByLine
import Keystroke.Proofs.Trace.LineText
import Keystroke.Proofs.Trace.Normal

namespace Keystroke.Trace

open Json Numeral Event

variable {depth : Nat}

inductive Content
  | integer (z : Int)
  | text (t : Text)

/-- The values of a field as they are spelled, with what the field holds afterwards. -/
inductive FieldText : Field → Option Content → Bytes → Prop
  | kind {z : Int} (h : z = 2400 ∨ z = 2401 ∨ z = 2402) :
      FieldText .kind (some (.integer z)) (Utf8.bytes (decimal z))
  | int (f : IntField) {z : Int} {v : Bytes} (h : IntegerText z v) (hl : v.length ≤ 4300) :
      FieldText (.int f) (some (.integer z)) v
  | null : FieldText .source none (Utf8.bytes "null")
  | source (s : String) {b : Bytes} (hb : StringOf b (s.toList.flatMap String.utf8EncodeChar)) :
      FieldText .source (some (.text s)) (0x22 :: b)

theorem exists_kind_iff {z : Int} : (∃ k : Kind, z = k.code) ↔ z = 2400 ∨ z = 2401 ∨ z = 2402 := by
  constructor
  · rintro ⟨k, rfl⟩
    cases k
    · exact .inl rfl
    · exact .inr (.inl rfl)
    · exact .inr (.inr rfl)
  · rintro (rfl | rfl | rfl)
    · exact ⟨.typed, rfl⟩
    · exact ⟨.pressed, rfl⟩
    · exact ⟨.released, rfl⟩

theorem FieldText.exists_kind {x : Option Content} {v : Bytes} (h : FieldText .kind x v) :
    ∃ k : Kind, x = some (.integer k.code) := by
  cases h with
  | kind h =>
      obtain ⟨k, rfl⟩ := exists_kind_iff.2 h
      exact ⟨k, rfl⟩

def valuesOf (f : Field) (ms : List (Bytes × Bytes)) : List Bytes :=
  (ms.filter fun m => m.1 = Utf8.bytes f.name).map Prod.snd

def Draft.content (d : Draft) : Field → Option Content
  | .kind => d.kind.map fun k => .integer k.code
  | .int f => (d.int? f).map .integer
  | .source => d.source.map .text

theorem Draft.ext_content {d d' : Draft} (h : ∀ f, d.content f = d'.content f) : d = d' := by
  have hkind : d.kind = d'.kind := by
    refine Option.map_injective (fun a b hab => ?_) (h .kind)
    cases a <;> cases b <;> first | rfl | cases hab
  have hint (f : IntField) : d.int? f = d'.int? f :=
    Option.map_injective (fun a b hab => Content.integer.inj hab) (h (.int f))
  have hsource : d.source = d'.source :=
    Option.map_injective (fun a b hab => Content.text.inj hab) (h .source)
  obtain ⟨kind, time, modifiers, rawCode, keyCode, char, location, source⟩ := d
  obtain ⟨kind', time', modifiers', rawCode', keyCode', char', location', source'⟩ := d'
  cases hkind
  cases hint .time
  cases hint .modifiers
  cases hint .rawCode
  cases hint .keyCode
  cases hint .char
  cases hint .location
  cases hsource
  rfl

theorem content_setInt (d : Draft) (z : Int) (f : IntField) :
    (d.setInt z f).content (.int f) = some (.integer z) ∧
      ∀ g, g ≠ .int f → (d.setInt z f).content g = d.content g := by
  constructor
  · rw [Draft.content, int?_setInt, if_pos rfl]
    rfl
  · intro g hg
    cases g with
    | kind => cases f <;> rfl
    | int g =>
        have hne : g ≠ f := fun e => hg (congrArg Field.int e)
        rw [Draft.content, int?_setInt, if_neg hne]
        rfl
    | source => rw [Draft.content, source_setInt]; rfl

theorem exists_of_kindOf {t : Token} {k : Kind} (h : kindOf t = .ok k) :
    ∃ l : Literal, t = .number l ∧ l.isInteger = true ∧ l.integer = k.code := by
  cases t with
  | number l =>
      rw [kindOf] at h
      split at h
      · rename_i hn
        split at h
        · rename_i k' hk
          cases h
          refine ⟨l, rfl, ?_, ?_⟩
          · rw [numberType] at hn
            split at hn
            · rename_i hi
              exact hi.1
            · split at hn <;> cases hn
          · have := List.find?_some hk
            exact (beq_iff_eq.1 this).symm
        · cases h
      · cases h
  | null | bool | string | array | object => cases h

theorem fieldText_of_set {d d' : Draft} {f : Field} {t : Token} {v : Bytes} (ht : TokenText t v)
    (h : d.set f t = .ok d') :
    FieldText f (d'.content f) v ∧ ∀ g, g ≠ f → d'.content g = d.content g := by
  cases f with
  | kind =>
      obtain ⟨kind, hkind, rfl⟩ := exists_of_map h
      obtain ⟨k, hk, hsome⟩ := exists_of_bind hkind
      cases hsome
      obtain ⟨l, rfl, hi, hz⟩ := exists_of_kindOf (eq_ok_of_mapError hk)
      refine ⟨?_, fun g hg => ?_⟩
      · have hv : IntegerText k.code v := by
          cases ht with
          | number hl => exact integerText_iff.2 ⟨l, hl, hi, hz⟩
        rcases hv with rfl | ⟨hz, -⟩
        · exact .kind (exists_kind_iff.1 ⟨k, rfl⟩)
        · cases k <;> cases hz
      · cases g with
        | kind => exact absurd rfl hg
        | int g => cases g <;> rfl
        | source => rfl
  | int f =>
      obtain ⟨z, hz, rfl⟩ := exists_of_map h
      obtain ⟨l, rfl, hi, rfl, hlength⟩ := exists_of_intOf (eq_ok_of_mapError hz)
      obtain ⟨hc, hother⟩ := content_setInt d l.integer f
      refine ⟨?_, hother⟩
      rw [hc]
      cases ht with
      | number hl =>
          exact .int f (integerText_iff.2 ⟨l, hl, hi, rfl⟩) (by rwa [length_of_numberText hl hi])
  | source =>
      obtain ⟨s, hs, rfl⟩ := exists_of_map h
      refine ⟨?_, fun g hg => ?_⟩
      · rcases exists_of_sourceOf hs with ⟨rfl, rfl⟩ | ⟨u, rfl, hu, rfl⟩
        · cases ht
          exact .null
        · cases ht with
          | string hb =>
              obtain ⟨w, rfl, hw⟩ := Utf8.exists_string hu
              rw [hw] at hb
              exact .source w hb
      · cases g with
        | kind => rfl
        | int g => cases g <;> rfl
        | source => exact absurd rfl hg

theorem exists_set_of_fieldText {f : Field} {x : Option Content} {v : Bytes} (h : FieldText f x v)
    (d : Draft) :
    ∃ t d', TokenText t v ∧ d.set f t = .ok d' ∧ d'.content f = x := by
  cases h with
  | kind h =>
      obtain ⟨k, rfl⟩ := exists_kind_iff.2 h
      refine ⟨_, { d with kind := k }, .number (numberText_decimal k.code), ?_, rfl⟩
      rw [Draft.set, kindOf_code]
      rfl
  | @int f z v hz hl =>
      obtain ⟨l, hv, hi, rfl⟩ := integerText_iff.1 hz
      refine ⟨_, d.setInt l.integer f, .number hv, ?_, (content_setInt d l.integer f).1⟩
      rw [length_of_numberText hv hi] at hl
      rw [Draft.set, intOf, if_pos hi, integerLimit, if_neg (Nat.not_lt.2 hl)]
      rfl
  | null => exact ⟨_, { d with source := none }, .null, rfl, rfl⟩
  | source w hb =>
      refine ⟨_, { d with source := some w }, .string hb, ?_, rfl⟩
      rw [Draft.set, sourceOf, ← Utf8.bytes_ofString,
        Utf8.decode?_eq_some_iff.2 ⟨Text.noSurrogate_ofString w, rfl⟩]
      rfl

theorem valuesOf_cons_self (f : Field) (v : Bytes) (ms : List (Bytes × Bytes)) :
    valuesOf f ((Utf8.bytes f.name, v) :: ms) = v :: valuesOf f ms := by
  simp [valuesOf]

theorem valuesOf_cons_of_ne {f : Field} {key : Bytes} (h : key ≠ Utf8.bytes f.name) (v : Bytes)
    (ms : List (Bytes × Bytes)) : valuesOf f ((key, v) :: ms) = valuesOf f ms := by
  simp [valuesOf, h]

theorem eq_of_bytes_name {f g : Field} (h : Utf8.bytes f.name = Utf8.bytes g.name) : f = g := by
  have hf := fieldOf?_name f
  rw [h, fieldOf?_name g] at hf
  exact (Option.some.inj hf).symm

theorem take_unknown {key : Bytes} (h : fieldOf? key = none) (d : Draft) (v : Bytes) :
    d.take (key, v) = .ok d := by
  rw [Draft.take]
  simp only [h]

theorem take_field {f : Field} {v : Bytes} {t : Token} (ht : TokenText t v) (d : Draft) :
    d.take (Utf8.bytes f.name, v) = d.set f t := by
  have htoken : token? v = some (t, []) := by simpa using token?_append ht endsNumber_nil
  rw [Draft.take]
  simp only [fieldOf?_name, htoken, orSyntax, Except.bind]

theorem tokenText_of_take {depth : Nat} {f : Field} {v : Bytes} (hv : ValueText depth v)
    {d d' : Draft} (h : d.take (Utf8.bytes f.name, v) = .ok d') : ∃ t, TokenText t v := by
  have hnest {n : Nest} {s : Bytes} (hs : v = n.opening :: s) : False := by
    rw [Draft.take] at h
    simp only [fieldOf?_name, token?_nest_iff.2 hs, orSyntax, Except.bind, set_nest] at h
    cases h
  cases hv with
  | plain ht => exact ⟨_, ht⟩
  | empty n _ => exact (hnest rfl).elim
  | nested _ => exact (hnest rfl).elim

inductive Takes (f : Field) : Option Content → List Bytes → Option Content → Prop
  | nil (x : Option Content) : Takes f x [] x
  | cons {x y z : Option Content} {v : Bytes} {vs : List Bytes} (h : FieldText f y v)
      (hr : Takes f y vs z) : Takes f x (v :: vs) z

theorem takes_of_takeAll {ms : List (Bytes × Bytes)} (hms : ∀ m ∈ ms, ∃ depth, ValueText depth m.2)
    {d d' : Draft} (h : d.takeAll ms = .ok d') (f : Field) :
    Takes f (d.content f) (valuesOf f ms) (d'.content f) := by
  induction ms generalizing d with
  | nil =>
      cases h
      exact .nil _
  | cons m ms ih =>
      obtain ⟨⟨depth, hv⟩, hvalues⟩ := List.forall_mem_cons.1 hms
      obtain ⟨key, v⟩ := m
      obtain ⟨d₁, hd, h⟩ := exists_of_bind h
      have hrest := ih hvalues h
      cases hf : fieldOf? key with
      | none =>
          rw [take_unknown hf] at hd
          cases hd
          rwa [valuesOf_cons_of_ne (fieldOf?_eq_none_iff.1 hf f)]
      | some g =>
          obtain rfl := fieldOf?_eq_some_iff.1 hf
          obtain ⟨t, ht⟩ := tokenText_of_take hv hd
          rw [take_field ht] at hd
          obtain ⟨hg, hother⟩ := fieldText_of_set ht hd
          by_cases hfg : f = g
          · subst hfg
            rw [valuesOf_cons_self]
            exact .cons hg hrest
          · rw [valuesOf_cons_of_ne fun e => hfg (eq_of_bytes_name e).symm, ← hother f hfg]
            exact hrest

theorem takeAll_of_takes {ms : List (Bytes × Bytes)} {d d' : Draft}
    (h : ∀ f, Takes f (d.content f) (valuesOf f ms) (d'.content f)) : d.takeAll ms = .ok d' := by
  induction ms generalizing d with
  | nil =>
      refine congrArg Except.ok (Draft.ext_content fun f => ?_)
      have hf := h f
      generalize d.content f = x at hf
      generalize d'.content f = z at hf
      cases hf
      rfl
  | cons m ms ih =>
      obtain ⟨key, v⟩ := m
      rw [Draft.takeAll]
      cases hk : fieldOf? key with
      | none =>
          rw [take_unknown hk]
          refine ih fun f => ?_
          have hf := h f
          rwa [valuesOf_cons_of_ne (fieldOf?_eq_none_iff.1 hk f)] at hf
      | some g =>
          obtain rfl := fieldOf?_eq_some_iff.1 hk
          have hg := h g
          rw [valuesOf_cons_self] at hg
          cases hg with
          | cons hv hr =>
              obtain ⟨t, d₁, ht, hd, hc⟩ := exists_set_of_fieldText hv d
              rw [take_field ht, hd]
              refine ih fun f => ?_
              by_cases hfg : f = g
              · subst hfg
                rw [hc]
                exact hr
              · have hf := h f
                rw [valuesOf_cons_of_ne fun e => hfg (eq_of_bytes_name e).symm] at hf
                rwa [(fieldText_of_set ht hd).2 f hfg]

/-- The last value counts, but each has to be of the type of its field. -/
theorem takes_iff {f : Field} {x z : Option Content} {vs : List Bytes} :
    Takes f x vs z ↔ (∀ v ∈ vs, ∃ y, FieldText f y v) ∧ (vs = [] → z = x) ∧
      ∀ v, vs.getLast? = some v → FieldText f z v := by
  induction vs generalizing x with
  | nil =>
      constructor
      · intro h
        cases h
        simp
      · rintro ⟨-, h, -⟩
        rw [h rfl]
        exact .nil x
  | cons v vs ih =>
      constructor
      · intro h
        cases h with
        | @cons _ y _ _ _ hv hr =>
            obtain ⟨htyped, hempty, hlast⟩ := ih.1 hr
            refine ⟨List.forall_mem_cons.2 ⟨⟨y, hv⟩, htyped⟩, by simp, fun w hw => ?_⟩
            cases vs with
            | nil =>
                cases hw
                rwa [hempty rfl]
            | cons u vs => exact hlast w (by rwa [List.getLast?_cons_cons] at hw)
      · rintro ⟨htyped, -, hlast⟩
        obtain ⟨⟨y, hv⟩, htyped⟩ := List.forall_mem_cons.1 htyped
        cases vs with
        | nil => exact .cons (hlast v rfl) (.nil z)
        | cons u vs =>
            refine .cons hv (ih.2 ⟨htyped, by simp, fun w hw => hlast w ?_⟩)
            rwa [List.getLast?_cons_cons]

theorem LineText.values {ms : List (Bytes × Bytes)} {line : Bytes} (h : LineText depth ms line) :
    ∀ m ∈ ms, ∃ depth, ValueText depth m.2 := by
  have hmembers {ms : List (Bytes × Bytes)} {b : Bytes} (h : MembersText depth ms b) :
      ∀ m ∈ ms, ∃ depth, ValueText depth m.2 := by
    induction h with
    | last _ _ hv _ => exact List.forall_mem_singleton.2 ⟨_, hv⟩
    | more _ _ hv _ _ ih => exact List.forall_mem_cons.2 ⟨⟨_, hv⟩, ih⟩
  obtain ⟨p, b, q, -, hb, -, -⟩ := h
  cases hb with
  | empty => simp
  | members hb => exact hmembers hb

theorem takeAll_eq_ok_iff {ms : List (Bytes × Bytes)} {line : Bytes} (h : LineText depth ms line)
    {d d' : Draft} :
    d.takeAll ms = .ok d' ↔ ∀ f, Takes f (d.content f) (valuesOf f ms) (d'.content f) :=
  ⟨takes_of_takeAll h.values, takeAll_of_takes⟩

def draftOf (k : Kind) (c : CodePoint) (e : Event) : Draft :=
  ⟨some k, some e.time, some e.modifiers, some e.rawCode, some e.keyCode, some c.val,
    some e.location, e.source⟩

theorem readEvent_text {ms : List (Bytes × Bytes)} {line : Bytes} (h : LineText depth ms line) {e : Event} :
    readEvent depth line = .ok e ↔ ∃ k c, e.kind = k.code ∧ e.char = [c] ∧
      Allowed e.kind e.keyCode e.char ∧ Draft.takeAll {} ms = .ok (draftOf k c e) := by
  rw [readEvent, readRecord_text h]
  constructor
  · intro he
    obtain ⟨r, hr, he⟩ := exists_of_bind he
    obtain ⟨d, hd, hf⟩ := exists_of_bind hr
    have he := eq_ok_of_mapError he
    rw [Record.toEvent] at he
    obtain ⟨char, hchar, he⟩ := exists_of_bind he
    obtain ⟨c, rfl, hc⟩ := exists_of_charOf hchar
    have he := eq_ok_of_mapError he
    rw [create] at he
    split at he
    · rename_i ha
      cases he
      refine ⟨r.kind, c, rfl, rfl, ha, ?_⟩
      rw [hd, finish_eq_ok (eq_ok_of_mapError hf), draftOf, hc]
    · cases he
  · rintro ⟨k, c, hk, hc, ha, hd⟩
    rw [hd]
    change (Record.mk k e.time e.modifiers e.rawCode e.keyCode c.val e.location
      e.source).toEvent.mapError LineFault.reason = _
    rw [toEvent_eq hk hc, if_pos ha]
    rfl

def content (e : Event) (c : CodePoint) : Field → Option Content
  | .kind => some (.integer e.kind)
  | .int f => some (.integer (part e c f))
  | .source => e.source.map .text

/-- What the values of a line say of an event. Every value is one that its field takes, the last value of
a field is what the event holds, and no field but the source is missing. -/
structure Says (values : Field → List Bytes) (e : Event) (c : CodePoint) : Prop where
  typed : ∀ f, ∀ v ∈ values f, ∃ x, FieldText f x v
  last : ∀ f v, (values f).getLast? = some v → FieldText f (content e c f) v
  missing : ∀ f, values f = [] → f = .source ∧ e.source = none
  char : e.char = [c]
  allowed : e.kind = 2400 → e.keyCode = 0 ∧ e.char ≠ noChar

theorem content_draftOf {k : Kind} {e : Event} (hk : e.kind = k.code) (c : CodePoint) (f : Field) :
    (draftOf k c e).content f = content e c f := by
  cases f with
  | kind => rw [content, hk]; rfl
  | int f => cases f <;> rfl
  | source => rfl

theorem readEvent_eq_ok_iff {ms : List (Bytes × Bytes)} {line : Bytes} (h : LineText depth ms line)
    {e : Event} : readEvent depth line = .ok e ↔ ∃ c, Says (valuesOf · ms) e c := by
  have hempty (f : Field) : Draft.content {} f = none := by
    cases f with
    | int f => cases f <;> rfl
    | kind | source => rfl
  rw [readEvent_text h]
  simp only [takeAll_eq_ok_iff h, takes_iff, hempty]
  constructor
  · rintro ⟨k, c, hk, hc, ha, hd⟩
    refine ⟨c, fun f => (hd f).1, fun f v hv => ?_, fun f hf => ?_, hc, ha⟩
    · rw [← content_draftOf hk c f]
      exact (hd f).2.2 v hv
    · have hnone := (hd f).2.1 hf
      rw [content_draftOf hk c f] at hnone
      cases f with
      | kind | int => cases hnone
      | source => exact ⟨rfl, Option.map_eq_none_iff.1 hnone⟩
  · rintro ⟨c, hs⟩
    obtain ⟨k, hk⟩ : ∃ k : Kind, e.kind = k.code := by
      have hne : valuesOf .kind ms ≠ [] := by
        intro he
        cases (hs.missing .kind he).1
      have hv := hs.last .kind _ (List.getLast?_eq_some_getLast hne)
      obtain ⟨k, hk⟩ := hv.exists_kind
      exact ⟨k, Content.integer.inj (Option.some.inj hk)⟩
    refine ⟨k, c, hk, hs.char, hs.allowed, fun f => ⟨hs.typed f, fun hf => ?_, fun v hv => ?_⟩⟩
    · obtain ⟨rfl, he⟩ := hs.missing f hf
      rw [content_draftOf hk, content, he]
      rfl
    · rw [content_draftOf hk]
      exact hs.last f v hv

theorem LineText.not_blank {ms : List (Bytes × Bytes)} {line : Bytes} (h : LineText depth ms line) :
    isBlankLine line = false := by
  obtain ⟨p, b, q, -, hb, -, rfl⟩ := h
  have hm : (0x7B : UInt8) ∈ p ++ (b ++ q) := by
    cases hb <;> simp
  rw [isBlankLine, List.all_eq_false]
  exact ⟨_, hm, by decide⟩

theorem decode_text {ms : List (Bytes × Bytes)} {line : Bytes} (hl : NoLineEnd line)
    (h : LineText depth ms line) (e : Event) : decode depth line = .ok [e] ↔ ∃ c, Says (valuesOf · ms) e c := by
  rw [← readEvent_eq_ok_iff h]
  constructor
  · intro hd
    cases he : readEvent depth line with
    | error x =>
        rw [decode_line_error hl h.not_blank he] at hd
        cases hd
    | ok e' =>
        rw [decode_line_ok hl h.not_blank he] at hd
        cases hd
        rfl
  · exact decode_line_ok hl h.not_blank

theorem exists_lineText_of_decode {line : Bytes} (hl : NoLineEnd line) {e : Event}
    (h : decode depth line = .ok [e]) : ∃ ms, LineText depth ms line := by
  cases hb : isBlankLine line with
  | true =>
      rw [decode_blank hl hb] at h
      cases h
  | false =>
      cases he : readEvent depth line with
      | error x =>
          rw [decode_line_error hl hb he] at h
          cases h
      | ok e' =>
          obtain ⟨r, hr, -⟩ := exists_of_bind he
          exact exists_lineText hl hr

/-- A line is accepted if and only if it is an object whose values say of an event what it is. Nothing else
about the line matters: not the order of its members, not the blanks, not the members of other names. -/
theorem decode_grammar {line : Bytes} (hl : NoLineEnd line) :
    (∀ e, decode depth line = .ok [e] ↔
      ∃ ms c, LineText depth ms line ∧ Says (valuesOf · ms) e c) ∧
    ∀ (line' : Bytes) (ms ms' : List (Bytes × Bytes)), NoLineEnd line' → LineText depth ms line →
      LineText depth ms' line' → (∀ f, valuesOf f ms = valuesOf f ms') →
      ∀ e, decode depth line = .ok [e] ↔ decode depth line' = .ok [e] := by
  refine ⟨fun e => ⟨fun h => ?_, ?_⟩, fun line' ms ms' hl' hm hm' hv e => ?_⟩
  · obtain ⟨ms, hm⟩ := exists_lineText_of_decode hl h
    obtain ⟨c, hs⟩ := (decode_text hl hm e).1 h
    exact ⟨ms, c, hm, hs⟩
  · rintro ⟨ms, c, hm, hs⟩
    exact (decode_text hl hm e).2 ⟨c, hs⟩
  · rw [decode_text hl hm, decode_text hl' hm', funext hv]

/-- A line whose first members are the given ones; then come all fields, not in their order. -/
def lineBehind (front : Text) : Bytes :=
  Utf8.bytes (" \x7b" ++ front ++ "\"x\\/\":[\x7b\x7d,-0.5e+3] ,\"key_char\" :55296,\"wh\\u0065n\":-0," ++
    "\"modifiers\":1,\"raw_code\":2,\"key_code\":65,\"key_location\":0,\"kind\":2402," ++
    "\"source\":\"\\b\\f\\n\\r\\t\\\"\\\\\\/\\uD83d\\uDe00é\"\x7d\t")

/-- Of two values of a field the later one counts, but the earlier one has to be an integer too. -/
theorem decode_grammar_twice :
    (∃ e ms c, decode usualDepth (lineBehind "\"raw_code\":1,") = .ok [e] ∧ e.rawCode = 2 ∧
      e.source = some "\x08\x0c\n\r\t\"\\/😀é" ∧
      LineText usualDepth ms (lineBehind "\"raw_code\":1,") ∧ Says (valuesOf · ms) e c) ∧
    ∀ e ms c, LineText usualDepth ms (lineBehind "\"raw_code\":1.0,") → ¬ Says (valuesOf · ms) e c := by
  constructor
  · have hl : NoLineEnd (lineBehind "\"raw_code\":1,") := by decide +kernel
    have hd : decode usualDepth (lineBehind "\"raw_code\":1,") =
        .ok [⟨2402, 0, 1, 2, 65, [⟨0xD800, by decide⟩], 0, some "\x08\x0c\n\r\t\"\\/😀é"⟩] := by
      apply eq_ok_of_toOption
      decide +kernel
    obtain ⟨ms, c, hm, hs⟩ := ((decode_grammar hl).1 _).1 hd
    exact ⟨_, ms, c, hd, rfl, rfl, hm, hs⟩
  · have hl : NoLineEnd (lineBehind "\"raw_code\":1.0,") := by decide +kernel
    have hd : (decode usualDepth (lineBehind "\"raw_code\":1.0,")).toOption = none := by decide +kernel
    intro e ms c hm hs
    rw [((decode_grammar hl).1 e).2 ⟨ms, c, hm, hs⟩] at hd
    cases hd

end Keystroke.Trace
