import Keystroke.Proofs.Trace.Token

namespace Keystroke.Trace

open Json

variable {depth : Nat}

def Nest.item? : Nest → Bytes → Option Bytes
  | array, s => some s
  | object, s => (key? s).map Prod.snd

/-- What stands at the front: a value, or the items of one that is open. -/
inductive Place
  | value
  | items (n : Nest)

/-- What is whole at a place, with no more levels than allowed, and what follows it. -/
inductive Skipped : Place → Nat → Bytes → Bytes → Prop
  | plain {depth : Nat} {s r : Bytes} {t : Token} (ht : token? (skipSpace s) = some (t, r))
      (hn : ∀ n : Nest, t ≠ n.token) : Skipped .value depth s r
  | empty {depth : Nat} {s r r' : Bytes} {n : Nest} (ht : token? (skipSpace s) = some (n.token, r))
      (hc : mark? n.close r = some r') : Skipped .value (depth + 1) s r'
  | nested {depth : Nat} {s r r' : Bytes} {n : Nest} (ht : token? (skipSpace s) = some (n.token, r))
      (hc : mark? n.close r = none) (h : Skipped (.items n) depth r r') :
      Skipped .value (depth + 1) s r'
  | last {depth : Nat} {s v r r' : Bytes} {n : Nest} (hi : n.item? s = some v)
      (h : Skipped .value depth v r) (hm : mark? ',' r = none) (hc : mark? n.close r = some r') :
      Skipped (.items n) depth s r'
  | more {depth : Nat} {s v r r' r'' : Bytes} {n : Nest} (hi : n.item? s = some v)
      (h : Skipped .value depth v r) (hm : mark? ',' r = some r') (hr : Skipped (.items n) depth r' r'') :
      Skipped (.items n) depth s r''

/-- From left to right and with everything before it whole, a bracket is met for which no level is
left. -/
inductive TooDeep : Place → Nat → Bytes → Prop
  | bracket {s r : Bytes} {n : Nest} (ht : token? (skipSpace s) = some (n.token, r)) :
      TooDeep .value 0 s
  | nested {depth : Nat} {s r : Bytes} {n : Nest} (ht : token? (skipSpace s) = some (n.token, r))
      (hc : mark? n.close r = none) (h : TooDeep (.items n) depth r) : TooDeep .value (depth + 1) s
  | item {depth : Nat} {s v : Bytes} {n : Nest} (hi : n.item? s = some v)
      (h : TooDeep .value depth v) : TooDeep (.items n) depth s
  | later {depth : Nat} {s v r r' : Bytes} {n : Nest} (hi : n.item? s = some v)
      (h : Skipped .value depth v r) (hm : mark? ',' r = some r') (hr : TooDeep (.items n) depth r') :
      TooDeep (.items n) depth s

def skipAt : Place → Nat → Nat → Bytes → Except LineFault Bytes
  | .value => skipValue
  | .items .array => skipElements
  | .items .object => skipMembers

theorem skipAt_none {s : Bytes} (h : token? (skipSpace s) = none) (fuel depth : Nat) :
    skipAt .value (fuel + 1) depth s = .error (.reason .syntaxError) := by
  rw [skipAt, skipValue, h]
  rfl

theorem skipAt_plain {s r : Bytes} {t : Token} (h : token? (skipSpace s) = some (t, r))
    (hn : ∀ n : Nest, t ≠ n.token) (fuel depth : Nat) :
    skipAt .value (fuel + 1) depth s = .ok r := by
  rw [skipAt, skipValue, h]
  cases t with
  | array => exact absurd rfl (hn .array)
  | object => exact absurd rfl (hn .object)
  | null | bool | number | string => rfl

theorem skipAt_zero {s r : Bytes} {n : Nest} (h : token? (skipSpace s) = some (n.token, r))
    (fuel : Nat) : skipAt .value (fuel + 1) 0 s = .error .tooDeep := by
  rw [skipAt, skipValue, h]
  cases n <;> rfl

theorem skipAt_nest {s r : Bytes} {n : Nest} (h : token? (skipSpace s) = some (n.token, r))
    (fuel depth : Nat) :
    skipAt .value (fuel + 1) (depth + 1) s = (match mark? n.close r with
      | some r' => .ok r'
      | none => skipAt (.items n) fuel depth r) := by
  rw [skipAt, skipValue, h]
  cases n with
  | array =>
      simp only [orSyntax, Nest.token, Nest.close, bind, Except.bind]
      cases mark? ']' r <;> rfl
  | object =>
      simp only [orSyntax, Nest.token, Nest.close, bind, Except.bind]
      cases mark? '\x7d' r <;> rfl

theorem skipAt_items (n : Nest) (fuel depth : Nat) (s : Bytes) :
    skipAt (.items n) (fuel + 1) depth s = (orSyntax (n.item? s)).bind fun v =>
      (skipAt .value fuel depth v).bind fun r => match mark? ',' r with
        | some r' => skipAt (.items n) fuel depth r'
        | none => orSyntax (mark? n.close r) := by
  cases n with
  | array =>
      change skipElements (fuel + 1) depth s = _
      rw [skipElements]
      rfl
  | object =>
      change skipMembers (fuel + 1) depth s = _
      rw [skipMembers, Nest.item?]
      cases key? s <;> rfl

theorem skipAt_item_ok {n : Nest} {fuel depth : Nat} {s v r : Bytes} (hi : n.item? s = some v)
    (hv : skipAt .value fuel depth v = .ok r) :
    skipAt (.items n) (fuel + 1) depth s = (match mark? ',' r with
      | some r' => skipAt (.items n) fuel depth r'
      | none => orSyntax (mark? n.close r)) := by
  rw [skipAt_items, hi]
  simp only [orSyntax, Except.bind, hv]

theorem skipAt_item_error {n : Nest} {fuel depth : Nat} {s v : Bytes} {x : LineFault}
    (hi : n.item? s = some v) (hv : skipAt .value fuel depth v = .error x) :
    skipAt (.items n) (fuel + 1) depth s = .error x := by
  rw [skipAt_items, hi]
  simp only [orSyntax, Except.bind, hv]

inductive Verdict (p : Place) (depth : Nat) (s : Bytes) : Except LineFault Bytes → Prop
  | skipped {r : Bytes} (h : Skipped p depth s r) : Verdict p depth s (.ok r)
  | tooDeep (h : TooDeep p depth s) : Verdict p depth s (.error .tooDeep)
  | reason (r : Reason) : Verdict p depth s (.error (.reason r))

theorem verdict_value {fuel : Nat} (ih : ∀ p depth s, Verdict p depth s (skipAt p fuel depth s))
    (depth : Nat) (s : Bytes) : Verdict .value depth s (skipAt .value (fuel + 1) depth s) := by
  cases ht : token? (skipSpace s) with
  | none =>
      rw [skipAt_none ht]
      exact .reason _
  | some q =>
      obtain ⟨t, r⟩ := q
      rcases exists_nest_or t with ⟨n, rfl⟩ | hn
      · cases depth with
        | zero =>
            rw [skipAt_zero ht]
            exact .tooDeep (.bracket ht)
        | succ depth =>
            rw [skipAt_nest ht]
            cases hc : mark? n.close r with
            | some r' => exact .skipped (.empty ht hc)
            | none =>
                have hr := ih (.items n) depth r
                generalize skipAt (.items n) fuel depth r = x at hr ⊢
                cases hr with
                | skipped h => exact .skipped (.nested ht hc h)
                | tooDeep h => exact .tooDeep (.nested ht hc h)
                | reason r => exact .reason r
      · rw [skipAt_plain ht hn]
        exact .skipped (.plain ht hn)

theorem verdict_items {fuel : Nat} (ih : ∀ p depth s, Verdict p depth s (skipAt p fuel depth s))
    (n : Nest) (depth : Nat) (s : Bytes) :
    Verdict (.items n) depth s (skipAt (.items n) (fuel + 1) depth s) := by
  cases hi : n.item? s with
  | none =>
      rw [skipAt_items, hi]
      exact .reason _
  | some v =>
      have hv := ih .value depth v
      cases hx : skipAt .value fuel depth v with
      | error x =>
          rw [skipAt_item_error hi hx]
          rw [hx] at hv
          cases hv with
          | tooDeep h => exact .tooDeep (.item hi h)
          | reason r => exact .reason r
      | ok r =>
          rw [skipAt_item_ok hi hx]
          rw [hx] at hv
          cases hv with
          | skipped h =>
              cases hm : mark? ',' r with
              | none =>
                  cases hc : mark? n.close r with
                  | none => exact .reason _
                  | some r' => exact .skipped (.last hi h hm hc)
              | some r' =>
                  have hi' := ih (.items n) depth r'
                  dsimp only
                  generalize skipAt (.items n) fuel depth r' = x at hi' ⊢
                  cases hi' with
                  | skipped hr => exact .skipped (.more hi h hm hr)
                  | tooDeep hr => exact .tooDeep (.later hi h hm hr)
                  | reason r => exact .reason r

theorem skipAt_verdict (fuel : Nat) (p : Place) (depth : Nat) (s : Bytes) :
    Verdict p depth s (skipAt p fuel depth s) := by
  induction fuel generalizing p depth s with
  | zero =>
      rcases p with _ | n
      · rw [skipAt, skipValue]
        exact .reason _
      · cases n <;> exact .reason _
  | succ fuel ih =>
      cases p with
      | value => exact verdict_value ih depth s
      | items n => exact verdict_items ih n depth s

theorem length_item? {n : Nest} {s v : Bytes} (h : n.item? s = some v) : v.length ≤ s.length := by
  cases n with
  | array => cases h; exact Nat.le_refl _
  | object =>
      obtain ⟨⟨key, r⟩, hk, rfl⟩ := Option.map_eq_some_iff.1 h
      exact Nat.le_of_lt (length_key? hk)

theorem Skipped.length_lt {p : Place} {depth : Nat} {s r : Bytes} (h : Skipped p depth s r) :
    r.length < s.length := by
  induction h with
  | plain ht _ => exact length_value_token? ht
  | empty ht hc => exact Nat.lt_trans (length_mark? hc) (length_value_token? ht)
  | nested ht _ _ ih => exact Nat.lt_trans ih (length_value_token? ht)
  | last hi _ _ hc ih =>
      have := length_item? hi
      have := length_mark? hc
      omega
  | more hi _ hm _ ih ihr =>
      have := length_item? hi
      have := length_mark? hm
      omega

def Place.calls (s : Bytes) : Place → Nat
  | value => 2 * s.length + 1
  | items _ => 2 * s.length + 2

theorem exists_calls {p : Place} {s : Bytes} {fuel : Nat} (h : p.calls s ≤ fuel) :
    ∃ n, fuel = n + 1 ∧ p.calls s ≤ n + 1 := by
  refine ⟨fuel - 1, ?_, ?_⟩ <;> cases p <;> simp only [Place.calls] at h ⊢ <;> omega

theorem skipAt_of_skipped {p : Place} {depth : Nat} {s r : Bytes} (h : Skipped p depth s r)
    {fuel : Nat} (hf : p.calls s ≤ fuel) : skipAt p fuel depth s = .ok r := by
  induction h generalizing fuel with
  | plain ht hn =>
      obtain ⟨fuel, rfl, -⟩ := exists_calls hf
      exact skipAt_plain ht hn fuel _
  | empty ht hc =>
      obtain ⟨fuel, rfl, -⟩ := exists_calls hf
      rw [skipAt_nest ht, hc]
  | nested ht hc _ ih =>
      obtain ⟨fuel, rfl, hf⟩ := exists_calls hf
      have := length_value_token? ht
      rw [skipAt_nest ht, hc]
      apply ih
      simp only [Place.calls] at hf ⊢
      omega
  | @last _ _ v _ _ _ hi _ hm hc ih =>
      obtain ⟨fuel, rfl, hf⟩ := exists_calls hf
      have := length_item? hi
      have hle : Place.value.calls v ≤ fuel := by simp only [Place.calls] at hf ⊢; omega
      have hv := ih hle
      rw [skipAt_item_ok hi hv, hm, hc]
      rfl
  | @more _ _ v _ _ _ _ hi h hm _ ih ihr =>
      obtain ⟨fuel, rfl, hf⟩ := exists_calls hf
      have := length_item? hi
      have := h.length_lt
      have := length_mark? hm
      have hle : Place.value.calls v ≤ fuel := by simp only [Place.calls] at hf ⊢; omega
      have hv := ih hle
      rw [skipAt_item_ok hi hv, hm]
      apply ihr
      simp only [Place.calls] at hf ⊢
      omega

theorem skipAt_of_tooDeep {p : Place} {depth : Nat} {s : Bytes} (h : TooDeep p depth s)
    {fuel : Nat} (hf : p.calls s ≤ fuel) : skipAt p fuel depth s = .error .tooDeep := by
  induction h generalizing fuel with
  | bracket ht =>
      obtain ⟨fuel, rfl, -⟩ := exists_calls hf
      exact skipAt_zero ht fuel
  | nested ht hc _ ih =>
      obtain ⟨fuel, rfl, hf⟩ := exists_calls hf
      have := length_value_token? ht
      rw [skipAt_nest ht, hc]
      apply ih
      simp only [Place.calls] at hf ⊢
      omega
  | item hi _ ih =>
      obtain ⟨fuel, rfl, hf⟩ := exists_calls hf
      have := length_item? hi
      apply skipAt_item_error hi
      apply ih
      simp only [Place.calls] at hf ⊢
      omega
  | @later _ _ v _ _ _ hi h hm _ ih =>
      obtain ⟨fuel, rfl, hf⟩ := exists_calls hf
      have := length_item? hi
      have := h.length_lt
      have := length_mark? hm
      have hle : Place.value.calls v ≤ fuel := by simp only [Place.calls] at hf ⊢; omega
      have hv := skipAt_of_skipped h hle
      rw [skipAt_item_ok hi hv, hm]
      apply ih
      simp only [Place.calls] at hf ⊢
      omega

theorem skip_eq (s : Bytes) : skip depth s = skipAt .value (2 * s.length + 2) depth s := rfl

theorem skip_eq_ok_iff {s r : Bytes} :
    skip depth s = .ok r ↔ Skipped .value depth s r := by
  rw [skip_eq]
  constructor
  · intro h
    have hv := skipAt_verdict (2 * s.length + 2) .value depth s
    rw [h] at hv
    cases hv with
    | skipped h => exact h
  · intro h
    exact skipAt_of_skipped h (Nat.le_succ _)

/-- The skipper fails on depth where a bracket is one too many, and only there. -/
theorem skip_eq_tooDeep_iff {s : Bytes} :
    skip depth s = .error .tooDeep ↔ TooDeep .value depth s := by
  rw [skip_eq]
  constructor
  · intro h
    have hv := skipAt_verdict (2 * s.length + 2) .value depth s
    rw [h] at hv
    cases hv with
    | tooDeep h => exact h
  · intro h
    exact skipAt_of_tooDeep h (Nat.le_succ _)

theorem skip_ne_sourceNotUtf8 (s : Bytes) : skip depth s ≠ .error .sourceNotUtf8 := by
  rw [skip_eq]
  intro h
  have hv := skipAt_verdict (2 * s.length + 2) .value depth s
  rw [h] at hv
  cases hv

theorem tooDeep_brackets (depth : Nat) (rest : Bytes) :
    TooDeep .value depth (List.replicate (depth + 1) 0x5B ++ rest) := by
  induction depth with
  | zero => exact .bracket (n := .array) rfl
  | succ depth ih => exact .nested (n := .array) rfl rfl (.item rfl ih)

end Keystroke.Trace
