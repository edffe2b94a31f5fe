import Keystroke.Json.Token

namespace Keystroke.Json

open CodeUnit Numeral

variable {σ : Type} [CodeUnit σ]

inductive DigitsText : List Nat → List σ → Prop
  | nil : DigitsText [] []
  | cons {d : Nat} {c : σ} {ds : List Nat} {s : List σ} (hd : d < 10) (hc : code c = 0x30 + d)
      (hs : DigitsText ds s) : DigitsText (d :: ds) (c :: s)

/-- Digits that are the text of a number: there are some, and zero leads only alone. -/
structure IsNumeral (ds : List Nat) : Prop where
  lt : ∀ d ∈ ds, d < 10
  ne_nil : ds ≠ []
  lead : ds.head? = some 0 → ds = [0]

inductive SignText : Bool → List σ → Prop
  | none : SignText false []
  | minus {c : σ} (hc : is c '-' = true) : SignText true [c]

inductive FractionText : Option (List Nat) → List σ → Prop
  | none : FractionText none []
  | digits {c : σ} {s : List σ} {ds : List Nat} (hc : is c '.' = true) (hs : DigitsText ds s)
      (hne : ds ≠ []) : FractionText (some ds) (c :: s)

inductive ExponentText : Option Int → List σ → Prop
  | none : ExponentText none []
  | plain {c : σ} {s : List σ} {ds : List Nat} (hc : is c 'e' = true ∨ is c 'E' = true)
      (hs : DigitsText ds s) (hne : ds ≠ []) : ExponentText (some (value 10 ds)) (c :: s)
  | plus {c p : σ} {s : List σ} {ds : List Nat} (hc : is c 'e' = true ∨ is c 'E' = true)
      (hp : is p '+' = true) (hs : DigitsText ds s) (hne : ds ≠ []) :
      ExponentText (some (value 10 ds)) (c :: p :: s)
  | minus {c m : σ} {s : List σ} {ds : List Nat} (hc : is c 'e' = true ∨ is c 'E' = true)
      (hm : is m '-' = true) (hs : DigitsText ds s) (hne : ds ≠ []) :
      ExponentText (some (-value 10 ds)) (c :: m :: s)

inductive NumberText : Literal → List σ → Prop
  | mk {negative : Bool} {ds : List Nat} {fraction : Option (List Nat)} {exponent : Option Int}
      {a b c d : List σ} (ha : SignText negative a) (hb : DigitsText ds b) (hds : IsNumeral ds)
      (hc : FractionText fraction c) (hd : ExponentText exponent d) :
      NumberText ⟨negative, ds, fraction, exponent⟩ (a ++ (b ++ (c ++ d)))

theorem code_of_is {c : σ} {x : Char} (h : is c x = true) : code c = x.toNat := by
  simpa [is] using h

theorem not_is_of_is {c : σ} {x y : Char} (h : is c x = true) (hxy : x ≠ y) : is c y = false := by
  rw [is, code_of_is h, beq_eq_false_iff_ne]
  exact fun e => hxy (Char.toNat_inj.1 e)

theorem digit?_eq_some_iff {s : σ} {d : Nat} : digit? s = some d ↔ d < 10 ∧ code s = 0x30 + d := by
  rw [digit?, Option.ite_none_right_eq_some, Option.some.injEq]
  omega

theorem digit?_lt {s : σ} {d : Nat} (h : digit? s = some d) : d < 10 := (digit?_eq_some_iff.1 h).1

theorem code_of_digit? {s : σ} {d : Nat} (h : digit? s = some d) : code s = 0x30 + d :=
  (digit?_eq_some_iff.1 h).2

theorem not_is_of_digit? {s : σ} {d : Nat} (h : digit? s = some d) {x : Char}
    (hx : x.toNat < 0x30 ∨ 0x39 < x.toNat) : is s x = false := by
  have := digit?_lt h
  rw [is, code_of_digit? h, beq_eq_false_iff_ne]
  omega

theorem digit?_of_is {c : σ} {x : Char} (h : is c x = true) (hx : x.toNat < 0x30 ∨ 0x39 < x.toNat) :
    digit? c = none := by
  rw [digit?, code_of_is h, if_neg]
  omega

theorem DigitsText.lt {ds : List Nat} {s : List σ} (h : DigitsText ds s) : ∀ d ∈ ds, d < 10 := by
  induction h with
  | nil => exact List.forall_mem_nil _
  | cons hd _ _ ih => exact List.forall_mem_cons.2 ⟨hd, ih⟩

theorem DigitsText.cons_inv {ds : List Nat} {u : σ} {s : List σ} (h : DigitsText ds (u :: s)) :
    ∃ d ds', ds = d :: ds' ∧ digit? u = some d ∧ DigitsText ds' s := by
  cases h with
  | @cons d _ ds _ hd hc hs => exact ⟨d, ds, rfl, digit?_eq_some_iff.2 ⟨hd, hc⟩, hs⟩

theorem DigitsText.exists_cons {ds : List Nat} {s : List σ} (h : DigitsText ds s) (hne : ds ≠ []) :
    ∃ u s', s = u :: s' ∧ ∃ d, digit? u = some d := by
  cases h with
  | nil => exact absurd rfl hne
  | @cons d u _ s hd hc _ => exact ⟨u, s, rfl, d, digit?_eq_some_iff.2 ⟨hd, hc⟩⟩

def signedDigits (negative : Bool) (s : List σ) : Option (Int × List σ) :=
  match spanDigits s with
  | ([], _) => none
  | (ds, r) =>
    let n : Int := value 10 ds
    some (if negative then -n else n, r)

theorem exponent?_mark {c : σ} (hc : is c 'e' = true ∨ is c 'E' = true) (s : List σ) :
    Literal.exponent? (c :: s) =
      match s with
      | [] => none
      | u :: r =>
        if is u '-' then signedDigits true r
        else if is u '+' then signedDigits false r
        else signedDigits false (u :: r) := by
  have he : (is c 'e' || is c 'E') = true := by simpa using hc
  cases s with
  | nil => simp only [Literal.exponent?, he, if_true]; rfl
  | cons u r =>
      simp only [Literal.exponent?, he, if_true]
      by_cases hm : is u '-' = true
      · simp only [hm, if_true]
        rfl
      by_cases hp : is u '+' = true
      · simp only [hm, hp, if_true]
        rfl
      · simp only [hm, hp]
        rfl

theorem exponent?_of_not_mark {c : σ} (hc : ¬ (is c 'e' = true ∨ is c 'E' = true)) (s : List σ) :
    Literal.exponent? (c :: s) = none := by
  have he : (is c 'e' || is c 'E') = false := by simpa using hc
  simp [Literal.exponent?, he]

section Sound

theorem spanDigits_sound (s : List σ) :
    ∃ b, DigitsText (spanDigits s).1 b ∧ s = b ++ (spanDigits s).2 := by
  induction s with
  | nil => exact ⟨[], .nil, rfl⟩
  | cons u s ih =>
      rw [spanDigits]
      cases hu : digit? u with
      | none => exact ⟨[], .nil, rfl⟩
      | some d =>
          obtain ⟨b, hb, hs⟩ := ih
          exact ⟨u :: b, .cons (digit?_lt hu) (code_of_digit? hu) hb, congrArg (u :: ·) hs⟩

theorem minus_sound (s : List σ) : ∃ a, SignText (minus s).1 a ∧ s = a ++ (minus s).2 := by
  unfold minus
  split
  · split
    · exact ⟨_, .minus ‹_›, rfl⟩
    · exact ⟨[], .none, rfl⟩
  · exact ⟨[], .none, rfl⟩

theorem whole?_sound {s r : List σ} {ds : List Nat} (h : whole? s = some (ds, r)) :
    ∃ b, DigitsText ds b ∧ IsNumeral ds ∧ s = b ++ r := by
  unfold whole? at h
  split at h
  · rename_i c s
    split at h
    · rename_i hc
      cases h
      exact ⟨[c], .cons (by decide) (code_of_is hc) .nil, ⟨by simp, by simp, fun _ => rfl⟩, rfl⟩
    · rename_i hc
      obtain ⟨b, hb, hs⟩ := spanDigits_sound (c :: s)
      generalize spanDigits (c :: s) = p at h hb hs
      obtain ⟨es, r'⟩ := p
      cases es with
      | nil => cases h
      | cons e es =>
          cases h
          refine ⟨b, hb, ⟨hb.lt, List.cons_ne_nil e es, fun hz => ?_⟩, hs⟩
          -- a zero in front would have been taken alone
          cases hb with
          | cons _ hu _ =>
              obtain ⟨rfl, -⟩ := List.cons.inj hs
              rw [Option.some.inj hz] at hu
              exact absurd (beq_iff_eq.2 hu) hc
  · cases h

theorem fraction_sound (s : List σ) :
    ∃ c, FractionText (fraction s).1 c ∧ s = c ++ (fraction s).2 := by
  unfold fraction
  split
  · rename_i u s
    split
    · rename_i hu
      obtain ⟨b, hb, hs⟩ := spanDigits_sound s
      generalize spanDigits s = p at hb hs
      obtain ⟨ds, r⟩ := p
      cases ds with
      | nil => exact ⟨[], .none, rfl⟩
      | cons d ds => exact ⟨u :: b, .digits hu hb (List.cons_ne_nil d ds), congrArg (u :: ·) hs⟩
    · exact ⟨[], .none, rfl⟩
  · exact ⟨[], .none, rfl⟩

theorem signedDigits_sound {negative : Bool} {s r : List σ} {z : Int}
    (h : signedDigits negative s = some (z, r)) :
    ∃ ds b, DigitsText ds b ∧ ds ≠ [] ∧ s = b ++ r ∧
      z = if negative then -(value 10 ds : Int) else value 10 ds := by
  obtain ⟨b, hb, hs⟩ := spanDigits_sound s
  rw [signedDigits] at h
  generalize spanDigits s = p at h hb hs
  obtain ⟨ds, r'⟩ := p
  cases ds with
  | nil => cases h
  | cons d ds =>
      cases h
      exact ⟨d :: ds, b, hb, List.cons_ne_nil d ds, hs, rfl⟩

theorem exponent?_sound {s r : List σ} {z : Int} (h : Literal.exponent? s = some (z, r)) :
    ∃ d, ExponentText (some z) d ∧ s = d ++ r := by
  cases s with
  | nil => cases h
  | cons c s =>
      by_cases hc : is c 'e' = true ∨ is c 'E' = true
      · cases s with
        | nil =>
            rw [exponent?_mark hc] at h
            cases h
        | cons u s =>
            rw [exponent?_mark hc] at h
            simp only at h
            split at h
            · obtain ⟨ds, b, hb, hne, rfl, rfl⟩ := signedDigits_sound h
              exact ⟨c :: u :: b, .minus hc ‹_› hb hne, rfl⟩
            split at h
            · obtain ⟨ds, b, hb, hne, rfl, rfl⟩ := signedDigits_sound h
              exact ⟨c :: u :: b, .plus hc ‹_› hb hne, rfl⟩
            · obtain ⟨ds, b, hb, hne, hs, rfl⟩ := signedDigits_sound h
              exact ⟨c :: b, .plain hc hb hne, congrArg (c :: ·) hs⟩
      · rw [exponent?_of_not_mark hc] at h
        cases h

theorem exponent_sound (s : List σ) :
    ∃ d, ExponentText (exponent s).1 d ∧ s = d ++ (exponent s).2 := by
  rw [exponent]
  split
  · exact exponent?_sound ‹_›
  · exact ⟨[], .none, rfl⟩

theorem number?_sound {s r : List σ} {l : Literal} (h : number? s = some (l, r)) :
    ∃ b, NumberText l b ∧ s = b ++ r := by
  simp only [number?, Option.bind_eq_bind, Option.bind_eq_some_iff, Option.pure_def] at h
  obtain ⟨⟨ds, r'⟩, hw, h⟩ := h
  cases h
  obtain ⟨a, ha, hs⟩ := minus_sound s
  obtain ⟨b, hb, hds, hm⟩ := whole?_sound hw
  obtain ⟨c, hc, hr⟩ := fraction_sound r'
  obtain ⟨d, hd, hf⟩ := exponent_sound (fraction r').2
  refine ⟨_, .mk ha hb hds hc hd, ?_⟩
  rw [List.append_assoc, List.append_assoc, List.append_assoc, ← hf, ← hr, ← hm, ← hs]

end Sound

section Complete

/-- What can stand behind a number without being taken for a part of it. -/
def EndsNumber (r : List σ) : Prop :=
  ∀ u ∈ r.head?, digit? u = none ∧ is u '.' = false ∧ is u 'e' = false ∧ is u 'E' = false

theorem spanDigits_append {ds : List Nat} {b r : List σ} (hb : DigitsText ds b)
    (hr : ∀ u ∈ r.head?, digit? u = none) : spanDigits (b ++ r) = (ds, r) := by
  induction hb with
  | nil =>
      cases r with
      | nil => rfl
      | cons u r => simp [spanDigits, hr u rfl]
  | cons hd hc _ ih => simp [spanDigits, digit?_eq_some_iff.2 ⟨hd, hc⟩, ih]

theorem minus_append {negative : Bool} {a : List σ} (ha : SignText negative a) {u : σ}
    (hu : is u '-' = false) (r : List σ) : minus (a ++ u :: r) = (negative, u :: r) := by
  cases ha with
  | none => simp [minus, hu]
  | minus hc => simp [minus, hc]

theorem whole?_append {ds : List Nat} {b r : List σ} (hb : DigitsText ds b) (hds : IsNumeral ds)
    (hr : ∀ u ∈ r.head?, digit? u = none) : whole? (b ++ r) = some (ds, r) := by
  have hspan := spanDigits_append hb hr
  obtain ⟨u, b, rfl, d, hd⟩ := hb.exists_cons hds.ne_nil
  obtain ⟨d', ds, rfl, hu, hb'⟩ := hb.cons_inv
  rw [List.cons_append] at hspan ⊢
  rw [whole?]
  split
  · rename_i hz
    have hd' : d' = 0 := by
      have := code_of_digit? hu
      rw [code_of_is hz] at this
      simpa using this.symm
    subst hd'
    have hds' : ds = [] := by simpa using hds.lead rfl
    subst hds'
    cases hb'
    rfl
  · rw [hspan]

theorem fraction_append {f : Option (List Nat)} {c r : List σ} (hc : FractionText f c)
    (hr : ∀ u ∈ r.head?, digit? u = none ∧ is u '.' = false) : fraction (c ++ r) = (f, r) := by
  cases hc with
  | none =>
      cases r with
      | nil => rfl
      | cons u r => simp [fraction, (hr u rfl).2]
  | @digits u s ds hu hs hne =>
      rw [List.cons_append, fraction, if_pos hu, spanDigits_append hs fun u hu => (hr u hu).1]
      cases ds with
      | nil => exact absurd rfl hne
      | cons d ds => rfl

theorem signedDigits_append {ds : List Nat} {b r : List σ} (hb : DigitsText ds b) (hne : ds ≠ [])
    (hr : ∀ u ∈ r.head?, digit? u = none) (negative : Bool) :
    signedDigits negative (b ++ r) =
      some (if negative then -(value 10 ds : Int) else value 10 ds, r) := by
  rw [signedDigits, spanDigits_append hb hr]
  cases ds with
  | nil => exact absurd rfl hne
  | cons d ds => rfl

theorem exponent_append {z : Option Int} {d r : List σ} (hd : ExponentText z d) (hr : EndsNumber r) :
    exponent (d ++ r) = (z, r) := by
  have hdigit : ∀ u ∈ r.head?, digit? u = none := fun u hu => (hr u hu).1
  cases hd with
  | none =>
      cases r with
      | nil => rfl
      | cons u r =>
          obtain ⟨-, -, he, hE⟩ := hr u rfl
          rw [exponent, List.nil_append, exponent?_of_not_mark (by simp [he, hE])]
  | @plain c s ds hc hs hne =>
      obtain ⟨u, s, rfl, d, hu⟩ := hs.exists_cons hne
      have hm : is u '-' = false := not_is_of_digit? hu (by decide)
      have hp : is u '+' = false := not_is_of_digit? hu (by decide)
      have hsigned := signedDigits_append hs hne hdigit false
      rw [List.cons_append] at hsigned
      rw [exponent, List.cons_append, exponent?_mark hc]
      simp [hm, hp, hsigned]
  | @plus c p s ds hc hp hs hne =>
      have hm : is p '-' = false := not_is_of_is hp (by decide)
      rw [exponent, List.cons_append, exponent?_mark hc]
      simp [hm, hp, signedDigits_append hs hne hdigit]
  | @minus c m s ds hc hm hs hne =>
      rw [exponent, List.cons_append, exponent?_mark hc]
      simp [hm, signedDigits_append hs hne hdigit]

theorem head?_exponentText {z : Option Int} {d r : List σ} (hd : ExponentText z d)
    (hr : EndsNumber r) : ∀ u ∈ (d ++ r).head?, digit? u = none ∧ is u '.' = false := by
  have mark {c : σ} (hc : is c 'e' = true ∨ is c 'E' = true) :
      digit? c = none ∧ is c '.' = false := by
    rcases hc with hc | hc
    · exact ⟨digit?_of_is hc (by decide), not_is_of_is hc (by decide)⟩
    · exact ⟨digit?_of_is hc (by decide), not_is_of_is hc (by decide)⟩
  intro u hu
  cases hd with
  | none => exact ⟨(hr u hu).1, (hr u hu).2.1⟩
  | plain hc | plus hc | minus hc =>
      cases hu
      exact mark hc

theorem head?_fractionText {f : Option (List Nat)} {c r : List σ} (hc : FractionText f c)
    (hr : ∀ u ∈ r.head?, digit? u = none) : ∀ u ∈ (c ++ r).head?, digit? u = none := by
  intro u hu
  cases hc with
  | none => exact hr u hu
  | digits hc =>
      cases hu
      exact digit?_of_is hc (by decide)

theorem number?_append {l : Literal} {b r : List σ} (hb : NumberText l b) (hr : EndsNumber r) :
    number? (b ++ r) = some (l, r) := by
  cases hb with
  | @mk negative ds fraction exponent a b c d ha hb hds hc hd =>
      have hexp := head?_exponentText hd hr
      have hfrac := head?_fractionText hc fun u hu => (hexp u hu).1
      have hwhole := whole?_append hb hds hfrac
      obtain ⟨u, b, rfl, x, hx⟩ := hb.exists_cons hds.ne_nil
      have hu : is u '-' = false := not_is_of_digit? hx (by decide)
      have hassoc : a ++ (u :: b ++ (c ++ d)) ++ r = a ++ u :: (b ++ (c ++ (d ++ r))) := by simp
      rw [List.cons_append] at hwhole
      simp only [hassoc, number?, minus_append ha hu, hwhole, fraction_append hc hexp,
        exponent_append hd hr, Option.bind_eq_bind, Option.bind_some, Option.pure_def]

theorem isUnfinished_of_endsNumber {r : List σ} (hr : EndsNumber r) (l : Literal) :
    isUnfinished l r = false := by
  cases r with
  | nil => rfl
  | cons u r =>
      obtain ⟨hd, hp, he, hE⟩ := hr u rfl
      simp [isUnfinished, hd, hp, he, hE]

end Complete

end Keystroke.Json
