import Keystroke.Proofs.Json.Number
import Keystroke.Proofs.Trace.Strings

namespace Keystroke.Trace

open Json CodeUnit Numeral

def Spaces (s : Bytes) : Prop := ∀ b ∈ s, b = 0x20 ∨ b = 0x09 ∨ b = 0x0A ∨ b = 0x0D

instance (s : Bytes) : Decidable (Spaces s) := inferInstanceAs (Decidable (∀ b ∈ s, _))

theorem isSpace_iff {b : UInt8} : isSpace b = true ↔ b = 0x20 ∨ b = 0x09 ∨ b = 0x0A ∨ b = 0x0D := by
  rw [isSpace, Bool.or_eq_true, Bool.or_eq_true, Bool.or_eq_true, is_iff (x := 0x20) rfl,
    is_iff (x := 0x09) rfl, is_iff (x := 0x0A) rfl, is_iff (x := 0x0D) rfl, or_assoc, or_assoc]

theorem exists_spaces (s : Bytes) : ∃ p, Spaces p ∧ s = p ++ skipSpace s := by
  refine ⟨s.takeWhile isSpace, fun b hb => ?_, List.takeWhile_append_dropWhile.symm⟩
  exact isSpace_iff.1 (List.all_eq_true.1 List.all_takeWhile b hb)

theorem skipSpace_cons {b : UInt8} (h : isSpace b = false) (r : Bytes) :
    skipSpace (b :: r) = b :: r := by
  simp [skipSpace, h]

theorem skipSpace_append {p : Bytes} (hp : Spaces p) (r : Bytes) : skipSpace (p ++ r) = skipSpace r := by
  induction p with
  | nil => rfl
  | cons b p ih =>
      obtain ⟨hb, hp⟩ := List.forall_mem_cons.1 hp
      rw [List.cons_append, skipSpace, List.dropWhile_cons, if_pos (isSpace_iff.2 hb)]
      exact ih hp

theorem after?_eq_some_iff {w : List Char} {bs s r : Bytes}
    (h : bs.map UInt8.toNat = w.map Char.toNat) : after? w s = some r ↔ s = bs ++ r := by
  induction w generalizing bs s with
  | nil =>
      cases List.map_eq_nil_iff.1 h
      rw [after?, List.nil_append, Option.some.injEq]
  | cons c w ih =>
      cases bs with
      | nil => cases h
      | cons x bs =>
          obtain ⟨hx, hbs⟩ := List.cons.inj h
          cases s with
          | nil => simp [after?]
          | cons b s =>
              rw [after?, List.cons_append, List.cons.injEq]
              by_cases hb : is b c = true
              · rw [if_pos hb, ih hbs, eq_of_is hb hx]
                simp
              · rw [if_neg hb]
                have hne : b ≠ x := fun e => hb (e ▸ is_of_toNat hx)
                simp [hne]

inductive Nest
  | array
  | object

namespace Nest

def token : Nest → Token
  | array => .array
  | object => .object

def opening : Nest → UInt8
  | array => 0x5B
  | object => 0x7B

def close : Nest → Char
  | array => ']'
  | object => '\x7d'

def closing : Nest → UInt8
  | array => 0x5D
  | object => 0x7D

end Nest

/-- A value that holds no others, as it is spelled. -/
inductive TokenText : Token → Bytes → Prop
  | null : TokenText .null (Utf8.bytes "null")
  | bool (b : Bool) : TokenText (.bool b) (Utf8.bytes (if b then "true" else "false"))
  | number {l : Literal} {s : Bytes} (h : NumberText l s) : TokenText (.number l) s
  | string {s content : Bytes} (h : StringOf s content) : TokenText (.string content) (0x22 :: s)

theorem exists_nest_or (t : Token) : (∃ n : Nest, t = n.token) ∨ ∀ n : Nest, t ≠ n.token := by
  cases t with
  | array => exact .inl ⟨.array, rfl⟩
  | object => exact .inl ⟨.object, rfl⟩
  | null | bool | number | string => exact .inr fun n => by cases n <;> simp [Nest.token]

theorem TokenText.ne_nest {t : Token} {b : Bytes} (h : TokenText t b) (n : Nest) : t ≠ n.token := by
  cases h <;> cases n <;> simp [Nest.token]

theorem token?_sound {s r : Bytes} {t : Token} (h : token? s = some (t, r)) :
    (∃ n : Nest, t = n.token ∧ s = n.opening :: r) ∨ ∃ b, TokenText t b ∧ s = b ++ r := by
  cases s with
  | nil => cases h
  | cons b s =>
      have word {c : Char} {x : UInt8} {w : List Char} {bs : Bytes} {t' : Token}
          (hc : is b c = true) (h : (after? w s).map (t', ·) = some (t, r)) (hx : x.toNat = c.toNat)
          (hbs : bs.map UInt8.toNat = w.map Char.toNat) (ht : TokenText t' (x :: bs)) :
          ∃ b', TokenText t b' ∧ b :: s = b' ++ r := by
        obtain ⟨r', hr, he⟩ := Option.map_eq_some_iff.1 h
        cases he
        rw [(after?_eq_some_iff hbs).1 hr, eq_of_is hc hx]
        exact ⟨x :: bs, ht, rfl⟩
      rw [token?] at h
      split at h
      · rename_i hb
        cases h
        exact .inl ⟨.array, rfl, by rw [eq_of_is hb (x := 0x5B) rfl]; rfl⟩
      split at h
      · rename_i hb
        cases h
        exact .inl ⟨.object, rfl, by rw [eq_of_is hb (x := 0x7B) rfl]; rfl⟩
      split at h
      · rename_i hb
        obtain ⟨⟨content, r'⟩, hs, he⟩ := Option.map_eq_some_iff.1 h
        cases he
        obtain ⟨b', hb', rfl⟩ := string?_eq_some_iff.1 hs
        exact .inr ⟨0x22 :: b', .string hb', by rw [eq_of_is hb (x := 0x22) rfl]; rfl⟩
      split at h
      · exact .inr (word ‹_› h rfl rfl .null)
      split at h
      · exact .inr (word ‹_› h rfl rfl (.bool true))
      split at h
      · exact .inr (word ‹_› h rfl rfl (.bool false))
      split at h
      · rename_i hn
        split at h
        · cases h
        · cases h
          obtain ⟨b', hb', hs⟩ := number?_sound hn
          exact .inr ⟨b', .number hb', hs⟩
      · cases h

theorem exists_cons_of_numberText {l : Literal} {b : Bytes} (h : NumberText l b) :
    ∃ u s, b = u :: s ∧ (u.toNat = 0x2D ∨ 0x30 ≤ u.toNat ∧ u.toNat ≤ 0x39) := by
  cases h with
  | mk ha hb hds hc hd =>
      cases ha with
      | none =>
          obtain ⟨u, s, rfl, d, hu⟩ := hb.exists_cons hds.ne_nil
          have hlt := digit?_lt hu
          have hcode : u.toNat = 0x30 + d := code_of_digit? hu
          exact ⟨u, _, rfl, .inr (by omega)⟩
      | minus hc => exact ⟨_, _, rfl, .inl (code_of_is hc)⟩

theorem token?_of_number {b : UInt8} (hb : b.toNat = 0x2D ∨ 0x30 ≤ b.toNat ∧ b.toNat ≤ 0x39)
    {s r : Bytes} {l : Literal} (hn : number? (b :: s) = some (l, r))
    (hu : isUnfinished l r = false) : token? (b :: s) = some (.number l, r) := by
  have hne (x : Char) (hx : x.toNat ≠ 0x2D ∧ (x.toNat < 0x30 ∨ 0x39 < x.toNat)) : is b x = false := by
    rw [is, beq_eq_false_iff_ne]
    intro he
    have : b.toNat = x.toNat := he
    omega
  rw [token?]
  simp [hne, hn, hu]

theorem token?_append {t : Token} {b r : Bytes} (h : TokenText t b) (hr : EndsNumber r) :
    token? (b ++ r) = some (t, r) := by
  cases h with
  | null => rfl
  | bool b => cases b <;> rfl
  | @number l s h =>
      have hn := number?_append h hr
      have hu := isUnfinished_of_endsNumber hr l
      obtain ⟨u, s, rfl, hub⟩ := exists_cons_of_numberText h
      exact token?_of_number hub hn hu
  | @string s content h =>
      have hs : string? (s ++ r) = some (content, r) := string?_eq_some_iff.2 ⟨s, h, rfl⟩
      change (string? (s ++ r)).map _ = _
      rw [hs]
      rfl

theorem token?_quote (r : Bytes) :
    token? (skipSpace (0x22 :: r)) = (string? r).map fun p => (.string p.1, p.2) := rfl

theorem token?_nest_iff {n : Nest} {s r : Bytes} :
    token? s = some (n.token, r) ↔ s = n.opening :: r := by
  constructor
  · intro h
    rcases token?_sound h with ⟨m, hm, hs⟩ | ⟨b, hb, -⟩
    · cases n <;> cases m
      · exact hs
      · cases hm
      · cases hm
      · exact hs
    · exact absurd rfl (hb.ne_nest n)
  · rintro rfl
    cases n <;> rfl

/-- A byte that a value can begin with: no space and no bracket that closes. -/
def OpensValue (u : UInt8) : Prop := isSpace u = false ∧ ∀ n : Nest, u ≠ n.closing

theorem TokenText.exists_cons {t : Token} {b : Bytes} (h : TokenText t b) :
    ∃ u s, b = u :: s ∧ OpensValue u := by
  have hclosing {u : UInt8} (h : u ≠ 0x5D ∧ u ≠ 0x7D) (n : Nest) : u ≠ n.closing := by
    cases n
    · exact h.1
    · exact h.2
  cases h with
  | null => exact ⟨_, _, rfl, by decide, hclosing (by decide)⟩
  | bool b => cases b <;> exact ⟨_, _, rfl, by decide, hclosing (by decide)⟩
  | number h =>
      obtain ⟨u, s, rfl, hu⟩ := exists_cons_of_numberText h
      have hne (x : Char) (hx : x.toNat < 0x2D) : is u x = false := by
        rw [is, beq_eq_false_iff_ne]
        intro he
        have : u.toNat = x.toNat := he
        omega
      refine ⟨u, s, rfl, by simp [isSpace, hne], hclosing ⟨?_, ?_⟩⟩
      · rintro rfl
        exact absurd hu (by decide)
      · rintro rfl
        exact absurd hu (by decide)
  | string h => exact ⟨_, _, rfl, by decide, hclosing (by decide)⟩

theorem token?_spaces {p : Bytes} (hp : Spaces p) {t : Token} {b r : Bytes} (h : TokenText t b)
    (hr : EndsNumber r) : token? (skipSpace (p ++ (b ++ r))) = some (t, r) := by
  have ht := token?_append h hr
  obtain ⟨u, s, rfl, hu, -⟩ := h.exists_cons
  rwa [skipSpace_append hp, List.cons_append, skipSpace_cons hu]

theorem mark?_eq_some_iff {c : Char} {x : UInt8} (hx : x.toNat = c.toNat) (hc : isSpace x = false)
    {s r : Bytes} : mark? c s = some r ↔ ∃ p, Spaces p ∧ s = p ++ x :: r := by
  constructor
  · intro h
    obtain ⟨p, hp, hs⟩ := exists_spaces s
    rw [mark?] at h
    split at h
    · rename_i b r' hb
      split at h
      · rename_i hbc
        cases h
        rw [hb, eq_of_is hbc hx] at hs
        exact ⟨p, hp, hs⟩
      · cases h
    · cases h
  · rintro ⟨p, hp, rfl⟩
    simp only [mark?, skipSpace_append hp, skipSpace_cons hc, is_of_toNat hx, if_true]

theorem mark?_eq_none {c : Char} {p : Bytes} (hp : Spaces p) {b : UInt8} (hb : isSpace b = false)
    (hbc : is b c = false) (r : Bytes) : mark? c (p ++ b :: r) = none := by
  simp [mark?, skipSpace_append hp, skipSpace_cons hb, hbc]

inductive KeyText (key : Bytes) : Bytes → Prop
  | mk {p b q : Bytes} (hp : Spaces p) (hb : StringOf b key) (hq : Spaces q) :
      KeyText key (p ++ 0x22 :: (b ++ (q ++ [0x3A])))

theorem key?_eq_some_iff {s key r : Bytes} :
    key? s = some (key, r) ↔ ∃ k, KeyText key k ∧ s = k ++ r := by
  have hquote {s r : Bytes} := mark?_eq_some_iff (c := '"') (x := 0x22) rfl rfl (s := s) (r := r)
  have hcolon {s r : Bytes} := mark?_eq_some_iff (c := ':') (x := 0x3A) rfl rfl (s := s) (r := r)
  constructor
  · intro h
    simp only [key?, Option.bind_eq_bind, Option.bind_eq_some_iff, Option.pure_def] at h
    obtain ⟨s₁, hs, ⟨key', s₂⟩, hk, s₃, hm, h⟩ := h
    cases h
    obtain ⟨p, hp, rfl⟩ := hquote.1 hs
    obtain ⟨b, hb, rfl⟩ := string?_eq_some_iff.1 hk
    obtain ⟨q, hq, rfl⟩ := hcolon.1 hm
    exact ⟨_, .mk hp hb hq, by simp⟩
  · rintro ⟨k, ⟨hp, hb, hq⟩, rfl⟩
    rename_i p b q
    have hs : string? (b ++ (q ++ 0x3A :: r)) = some (key, q ++ 0x3A :: r) :=
      string?_eq_some_iff.2 ⟨b, hb, rfl⟩
    have hassoc : p ++ 0x22 :: (b ++ (q ++ [0x3A])) ++ r = p ++ 0x22 :: (b ++ (q ++ 0x3A :: r)) := by
      simp
    simp only [key?, hassoc, hquote.2 ⟨p, hp, rfl⟩, hs, hcolon.2 ⟨q, hq, rfl⟩, Option.bind_eq_bind,
      Option.bind_some, Option.pure_def]

theorem length_mark? {c : Char} {s r : Bytes} (h : mark? c s = some r) : r.length < s.length := by
  obtain ⟨p, -, hs⟩ := exists_spaces s
  rw [mark?] at h
  split at h
  · rename_i b r' hb
    split at h
    · cases h
      rw [hs, hb]
      simp only [List.length_append, List.length_cons]
      omega
    · cases h
  · cases h

theorem length_key? {s r key : Bytes} (h : key? s = some (key, r)) : r.length < s.length := by
  obtain ⟨k, ⟨-, -, -⟩, rfl⟩ := key?_eq_some_iff.1 h
  simp only [List.length_append, List.length_cons]
  omega

theorem length_value_token? {s r : Bytes} {t : Token} (h : token? (skipSpace s) = some (t, r)) :
    r.length < s.length := by
  obtain ⟨p, -, hs⟩ := exists_spaces s
  rcases token?_sound h with ⟨n, -, he⟩ | ⟨b, hb, he⟩
  · rw [hs, he]
    simp only [List.length_append, List.length_cons]
    omega
  · obtain ⟨u, b, rfl, -⟩ := hb.exists_cons
    rw [hs, he]
    simp only [List.length_append, List.length_cons]
    omega

def Token.HasDigits : Token → Prop
  | number l => l.whole ≠ [] ∧ ∀ d ∈ l.whole, d < 10
  | _ => True

theorem token?_hasDigits {s r : Bytes} {t : Token} (h : token? s = some (t, r)) : t.HasDigits := by
  rcases token?_sound h with ⟨n, rfl, -⟩ | ⟨b, hb, -⟩
  · cases n <;> exact trivial
  · cases hb with
    | number h =>
        obtain ⟨-, -, hds, -, -⟩ := h
        exact ⟨hds.ne_nil, hds.lt⟩
    | null | bool | string => exact trivial

end Keystroke.Trace
