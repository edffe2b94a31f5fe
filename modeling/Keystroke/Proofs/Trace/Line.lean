import Keystroke.Proofs.Trace.Recordable
import Keystroke.Proofs.Trace.Token

namespace Keystroke.Trace

open Json CodeUnit Numeral Event

variable {depth : Nat}

def part (e : Event) (c : CodePoint) : IntField → Int
  | .time => e.time
  | .modifiers => e.modifiers
  | .rawCode => e.rawCode
  | .keyCode => e.keyCode
  | .char => c.val
  | .location => e.location

def fieldToken (e : Event) (c : CodePoint) : Field → Token
  | .kind => .number (.ofInt e.kind)
  | .int f => .number (.ofInt (part e c f))
  | .source => match e.source with
    | none => .null
    | some t => .string (Utf8.bytes t)

def recordText (e : Event) (c : CodePoint) : Text :=
  "\x7b" ++ Text.joined "," (Field.all.map (member e c)) ++ "\x7d"

def recordBytes (e : Event) (c : CodePoint) : Bytes := Utf8.bytes (recordText e c)

/-- What may stand behind a value: the mark of a next member or the end of the record. -/
inductive AfterValue : Bytes → Prop
  | comma (r : Bytes) : AfterValue (0x2C :: r)
  | brace (r : Bytes) : AfterValue (0x7D :: r)

theorem AfterValue.endsNumber {r : Bytes} (h : AfterValue r) : EndsNumber r := by
  cases h with
  | comma r => exact endsNumber_comma r
  | brace r => exact endsNumber_brace r

theorem bytes_string (t : Text) :
    Utf8.bytes (string t) = 0x22 :: (Utf8.bytes (t.flatMap escapedChar) ++ [0x22]) := by
  rw [string, Utf8.bytes_append, Utf8.bytes_append]
  rfl

theorem tokenText_valueText {e : Event} (hs : ∀ t ∈ e.source, t.NoSurrogate) (c : CodePoint)
    (f : Field) : TokenText (fieldToken e c f) (Utf8.bytes (valueText e c f)) := by
  cases f with
  | kind => exact .number (numberText_decimal e.kind)
  | int f => cases f <;> exact .number (numberText_decimal _)
  | source =>
      rw [valueText, fieldToken]
      cases h : e.source with
      | none => exact .null
      | some t =>
          rw [sourceText, bytes_string]
          exact .string (stringOf_escaped (hs t h))

theorem token?_valueText {e : Event} (hs : ∀ t ∈ e.source, t.NoSurrogate) (c : CodePoint) (f : Field)
    {r : Bytes} (hr : AfterValue r) :
    token? (skipSpace (Utf8.bytes (valueText e c f) ++ r)) = some (fieldToken e c f, r) :=
  token?_spaces (p := []) (by simp [Spaces]) (tokenText_valueText hs c f) hr.endsNumber

theorem escaped_name (f : Field) : f.name.flatMap escapedChar = f.name := by
  have h : ∀ f ∈ Field.all, f.name.flatMap escapedChar = f.name := by decide
  exact h f f.mem_all

theorem noSurrogate_name (f : Field) : f.name.NoSurrogate := by
  have h : ∀ f ∈ Field.all, f.name.NoSurrogate := by decide
  exact h f f.mem_all

theorem fieldOf?_name (f : Field) : fieldOf? (Utf8.bytes f.name) = some f := by
  have h : ∀ f ∈ Field.all, fieldOf? (Utf8.bytes f.name) = some f := by decide
  exact h f f.mem_all

def keyBytes (f : Field) : Bytes := 0x22 :: (Utf8.bytes f.name ++ [0x22, 0x3A])

theorem bytes_member (e : Event) (c : CodePoint) (f : Field) :
    Utf8.bytes (member e c f) = keyBytes f ++ Utf8.bytes (valueText e c f) := by
  rw [member, Utf8.bytes_append, Utf8.bytes_append, Utf8.bytes_append, keyBytes]
  rfl

theorem key?_string {t : Text} (h : t.NoSurrogate) (r : Bytes) :
    key? (Utf8.bytes (string t) ++ 0x3A :: r) = some (Utf8.bytes t, r) := by
  have hquote (s : Bytes) : mark? '"' (0x22 :: s) = some s := rfl
  have hcolon : mark? ':' (0x3A :: r) = some r := rfl
  have hs : string? ((Utf8.bytes (t.flatMap escapedChar) ++ [0x22]) ++ 0x3A :: r) =
      some (Utf8.bytes t, 0x3A :: r) := string?_eq_some_iff.2 ⟨_, stringOf_escaped h, rfl⟩
  rw [bytes_string, List.cons_append, key?]
  simp only [hquote, hs, hcolon, Option.bind_eq_bind, Option.bind_some, Option.pure_def]

theorem key?_keyBytes (f : Field) (r : Bytes) :
    key? (keyBytes f ++ r) = some (Utf8.bytes f.name, r) := by
  have hk : keyBytes f ++ r = Utf8.bytes (string f.name) ++ 0x3A :: r := by
    rw [bytes_string, escaped_name]
    simp [keyBytes]
  rw [hk]
  exact key?_string (noSurrogate_name f) r

theorem readMember_member {e : Event} (hs : ∀ t ∈ e.source, t.NoSurrogate) (c : CodePoint)
    (d : Draft) (f : Field) {r : Bytes} (hr : AfterValue r) :
    readMember depth d (Utf8.bytes (member e c f) ++ r) = (d.set f (fieldToken e c f)).map (·, r) := by
  rw [bytes_member, List.append_assoc, readMember, key?_keyBytes]
  simp only [orSyntax, fieldOf?_name, token?_valueText hs c f hr, bind, Except.bind, pure, Except.pure]
  cases d.set f (fieldToken e c f) <;> rfl

def Draft.setAll (e : Event) (c : CodePoint) (d : Draft) : List Field → Except LineFault Draft
  | [] => .ok d
  | f :: fs => do setAll e c (← d.set f (fieldToken e c f)) fs

theorem joined_members (e : Event) (c : CodePoint) (f g : Field) (fs : List Field) :
    Utf8.bytes (Text.joined "," ((f :: g :: fs).map (member e c))) =
      Utf8.bytes (member e c f) ++
        0x2C :: Utf8.bytes (Text.joined "," ((g :: fs).map (member e c))) := by
  have hj : Text.joined "," ((f :: g :: fs).map (member e c)) =
      member e c f ++ "," ++ Text.joined "," ((g :: fs).map (member e c)) := rfl
  rw [hj, Utf8.bytes_append, Utf8.bytes_append, List.append_assoc]
  rfl

theorem readMembers_joined {e : Event} (hs : ∀ t ∈ e.source, t.NoSurrogate) (c : CodePoint)
    (f : Field) (fs : List Field) (d : Draft) {fuel : Nat} (hf : fs.length < fuel) (r : Bytes) :
    readMembers depth fuel d (Utf8.bytes (Text.joined "," ((f :: fs).map (member e c))) ++ 0x7D :: r) =
      (d.setAll e c (f :: fs)).map (·, r) := by
  induction fs generalizing f d fuel with
  | nil =>
      obtain ⟨fuel, rfl⟩ : ∃ n, fuel = n + 1 := ⟨fuel - 1, by simp at hf; omega⟩
      simp only [List.map_cons, List.map_nil, Text.joined, readMembers,
        readMember_member hs c d f (.brace r), Draft.setAll]
      cases d.set f (fieldToken e c f) <;> rfl
  | cons g fs ih =>
      obtain ⟨fuel, rfl⟩ : ∃ n, fuel = n + 1 := ⟨fuel - 1, by simp at hf; omega⟩
      simp only [List.length_cons, Nat.add_lt_add_iff_right] at hf
      rw [joined_members, List.append_assoc, List.cons_append, readMembers,
        readMember_member hs c d f (.comma _), Draft.setAll]
      cases d.set f (fieldToken e c f) with
      | error x => rfl
      | ok d' => exact ih g d' hf

theorem length_le_joined (e : Event) (c : CodePoint) (fs : List Field) :
    fs.length ≤ (Utf8.bytes (Text.joined "," (fs.map (member e c)))).length := by
  have hm (f : Field) : 1 ≤ (Utf8.bytes (member e c f)).length := by
    rw [bytes_member, keyBytes]
    simp
  induction fs with
  | nil => simp
  | cons f fs ih =>
      cases fs with
      | nil => exact hm f
      | cons g fs =>
          rw [joined_members]
          have := hm f
          simp only [List.length_append, List.length_cons] at ih ⊢
          omega

theorem recordBytes_eq (e : Event) (c : CodePoint) :
    recordBytes e c =
      0x7B :: (Utf8.bytes (Text.joined "," (Field.all.map (member e c))) ++ [0x7D]) := by
  rw [recordBytes, recordText, Utf8.bytes_append, Utf8.bytes_append]
  rfl

def closeRecord (x : Except LineFault (Draft × Bytes)) : Except LineFault Record :=
  x.bind fun p => (p.1.finish.mapError .reason).bind fun record =>
    if skipSpace p.2 = [] then .ok record else .error (.reason .syntaxError)

theorem readRecord_open {line r : Bytes} (ht : token? (skipSpace line) = some (.object, r))
    (h : mark? '\x7d' r = none) :
    readRecord depth line = closeRecord (readMembers depth r.length {} r) := by
  rw [readRecord, ht]
  simp only [orSyntax, h, closeRecord, bind, Except.bind, pure, Except.pure]

theorem mark?_brace_member (e : Event) (c : CodePoint) (f : Field) (fs : List Field) (r : Bytes) :
    mark? '\x7d' (Utf8.bytes (Text.joined "," ((f :: fs).map (member e c))) ++ r) = none := by
  cases fs with
  | nil => rw [List.map_cons, List.map_nil, Text.joined, bytes_member, keyBytes]; rfl
  | cons g fs => rw [joined_members, bytes_member, keyBytes]; rfl

theorem closeRecord_joined {e : Event} (hs : ∀ t ∈ e.source, t.NoSurrogate) (c : CodePoint) {fuel : Nat}
    (hf : Field.all.length ≤ fuel) :
    closeRecord (readMembers depth fuel {}
        (Utf8.bytes (Text.joined "," (Field.all.map (member e c))) ++ [0x7D])) =
      (Draft.setAll e c {} Field.all).bind fun d => d.finish.mapError .reason := by
  obtain ⟨f, fs, hall⟩ : ∃ f fs, Field.all = f :: fs := ⟨_, _, rfl⟩
  rw [hall] at hf ⊢
  rw [readMembers_joined hs c f fs {} hf]
  cases Draft.setAll e c {} (f :: fs) with
  | error x => rfl
  | ok d =>
      simp only [closeRecord, Except.map, Except.bind]
      cases d.finish <;> rfl

theorem readRecord_recordBytes {e : Event} (hs : ∀ t ∈ e.source, t.NoSurrogate) (c : CodePoint) :
    readRecord depth (recordBytes e c) =
      (Draft.setAll e c {} Field.all).bind fun d => d.finish.mapError .reason := by
  have hopen : mark? '\x7d' (Utf8.bytes (Text.joined "," (Field.all.map (member e c))) ++ [0x7D]) = none :=
    mark?_brace_member e c .kind Field.all.tail [0x7D]
  have hlength := length_le_joined e c Field.all
  rw [recordBytes_eq, readRecord_open rfl hopen]
  apply closeRecord_joined hs c
  rw [List.length_append]
  omega

end Keystroke.Trace
