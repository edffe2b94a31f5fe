import Keystroke.Proofs.Digits
import Keystroke.Proofs.Json.NumberText

namespace Keystroke.Json

open CodeUnit Numeral

variable {σ : Type} [CodeUnit σ]

theorem pieces?_quote {c : σ} (h : is c '"' = true) (r : List σ) : pieces? (c :: r) = some ([], r) := by
  rw [pieces?.eq_def]
  simp only [h, if_true]

theorem pieces?_plain {c : σ} (hq : is c '"' = false) (hb : is c '\\' = false)
    (hc : 0x20 ≤ code c) (r : List σ) :
    pieces? (c :: r) = (pieces? r).map fun p => (.plain c :: p.1, p.2) := by
  rw [pieces?.eq_def]
  simp only [hq, hb, Nat.not_lt.2 hc, Bool.false_eq_true, if_false]
  cases pieces? r <;> rfl

theorem pieces?_letter {c e : σ} (hc : is c '\\' = true) (hu : is e 'u' = false) {u : CodePoint}
    (he : letterEscape? e = some u) (r : List σ) :
    pieces? (c :: e :: r) = (pieces? r).map fun p => (.escaped u :: p.1, p.2) := by
  have hq : is c '"' = false := not_is_of_is hc (by decide)
  rw [pieces?.eq_def]
  simp only [hq, hc, hu, he, Bool.false_eq_true, if_false, if_true]
  cases pieces? r <;> rfl

theorem pieces?_unit {c e a₁ a₂ a₃ a₄ : σ} (hc : is c '\\' = true) (he : is e 'u' = true)
    {u : CodePoint} (hu : hexUnit? a₁ a₂ a₃ a₄ = some u) (r : List σ) :
    pieces? (c :: e :: a₁ :: a₂ :: a₃ :: a₄ :: r) =
      (pieces? r).map fun p => (.escaped u :: p.1, p.2) := by
  have hq : is c '"' = false := not_is_of_is hc (by decide)
  rw [pieces?.eq_def]
  simp only [hq, hc, he, hu, Bool.false_eq_true, if_false, if_true]
  cases pieces? r <;> rfl

theorem hexDigit?_eq {s : σ} {d : Nat} (hd : d < 16) (h : code s = (CodePoint.ofDigit d).val) :
    hexDigit? s = some d := by
  have : ∀ d < 16, CodePoint.digit? 16 (CodePoint.ofDigit d) = some d := by decide
  rw [hexDigit?, h, CodePoint.ofNat?_val, Option.bind_some, this d hd]

theorem hexUnit?_paddedDigits {n : Nat} (h : n < 0x10000) {f : Nat → σ}
    (hf : ∀ d < 16, code (f d) = (CodePoint.ofDigit d).val) :
    ∃ a₁ a₂ a₃ a₄, (paddedDigits 16 4 n).map f = [a₁, a₂, a₃, a₄] ∧
      hexUnit? a₁ a₂ a₃ a₄ = CodePoint.ofNat? n := by
  have hlen : (paddedDigits 16 4 n).length = 4 := length_paddedDigits h (by decide)
  have hval : value 16 (paddedDigits 16 4 n) = n := value_paddedDigits (by decide) 4 n
  have hlt : ∀ d ∈ paddedDigits 16 4 n, d < 16 := fun _ => lt_of_mem_paddedDigits (by decide)
  generalize paddedDigits 16 4 n = ds at hlen hval hlt
  match ds, hlen with
  | [d₁, d₂, d₃, d₄], _ =>
    have digit (d : Nat) (hd : d ∈ [d₁, d₂, d₃, d₄]) : hexDigit? (f d) = some d :=
      hexDigit?_eq (hlt d hd) (hf d (hlt d hd))
    refine ⟨f d₁, f d₂, f d₃, f d₄, rfl, ?_⟩
    rw [hexUnit?, digit d₁ (by simp), digit d₂ (by simp), digit d₃ (by simp), digit d₄ (by simp)]
    simp only [Option.bind_eq_bind, Option.bind_some, hval]

/-- What stands behind an opening quote, up to and with the closing one, and its pieces. -/
inductive ClosedString : List σ → List (Piece σ) → Prop
  | close {c : σ} (hc : is c '"' = true) : ClosedString [c] []
  | plain {c : σ} {s : List σ} {ps : List (Piece σ)} (hq : is c '"' = false)
      (hb : is c '\\' = false) (hc : 0x20 ≤ code c) (h : ClosedString s ps) :
      ClosedString (c :: s) (.plain c :: ps)
  | letter {c e : σ} {u : CodePoint} {s : List σ} {ps : List (Piece σ)} (hc : is c '\\' = true)
      (hu : is e 'u' = false) (he : letterEscape? e = some u) (h : ClosedString s ps) :
      ClosedString (c :: e :: s) (.escaped u :: ps)
  | unit {c e a₁ a₂ a₃ a₄ : σ} {u : CodePoint} {s : List σ} {ps : List (Piece σ)}
      (hc : is c '\\' = true) (he : is e 'u' = true) (hu : hexUnit? a₁ a₂ a₃ a₄ = some u)
      (h : ClosedString s ps) : ClosedString (c :: e :: a₁ :: a₂ :: a₃ :: a₄ :: s) (.escaped u :: ps)

theorem ClosedString.pieces? {s : List σ} {ps : List (Piece σ)} (h : ClosedString s ps)
    (r : List σ) : pieces? (s ++ r) = some (ps, r) := by
  induction h with
  | close hc => exact pieces?_quote hc r
  | plain hq hb hc _ ih => rw [List.cons_append, pieces?_plain hq hb hc, ih]; rfl
  | letter hc hu he _ ih => rw [List.cons_append, List.cons_append, pieces?_letter hc hu he, ih]; rfl
  | unit hc he hu _ ih =>
      simp only [List.cons_append]
      rw [pieces?_unit hc he hu, ih]
      rfl

theorem closedString_of_pieces? {s r : List σ} {ps : List (Piece σ)}
    (h : Json.pieces? s = some (ps, r)) : ∃ b, ClosedString b ps ∧ s = b ++ r := by
  -- the induction is on the length: an escape is more than one code unit
  induction hn : s.length using Nat.strongRecOn generalizing s r ps with
  | ind n ih =>
      subst hn
      cases s with
      | nil =>
          rw [Json.pieces?.eq_def] at h
          cases h
      | cons c s =>
          rw [Json.pieces?.eq_def] at h
          simp only at h
          split at h
          · rename_i hq
            cases h
            exact ⟨[c], .close hq, rfl⟩
          rename_i hq
          rw [Bool.not_eq_true] at hq
          split at h
          · rename_i hb
            rcases s with _ | ⟨e, s⟩
            · cases h
            simp only at h
            split at h
            · rename_i he
              rcases s with _ | ⟨a₁, _ | ⟨a₂, _ | ⟨a₃, _ | ⟨a₄, s⟩⟩⟩⟩
              · cases h
              · cases h
              · cases h
              · cases h
              simp only [Option.bind_eq_bind, Option.bind_eq_some_iff] at h
              obtain ⟨u, hu, ⟨ps', r'⟩, hp, h⟩ := h
              cases h
              obtain ⟨b, hs, rfl⟩ := ih s.length (by simp only [List.length_cons]; omega) hp rfl
              exact ⟨_, .unit hb he hu hs, rfl⟩
            · rename_i he
              simp only [Option.bind_eq_bind, Option.bind_eq_some_iff] at h
              obtain ⟨u, hu, ⟨ps', r'⟩, hp, h⟩ := h
              cases h
              obtain ⟨b, hs, rfl⟩ := ih s.length (by simp only [List.length_cons]; omega) hp rfl
              exact ⟨_, .letter hb (Bool.eq_false_iff.2 he) hu hs, rfl⟩
          · rename_i hb
            split at h
            · cases h
            · rename_i hc
              simp only [Option.bind_eq_bind, Option.bind_eq_some_iff] at h
              obtain ⟨⟨ps', r'⟩, hp, h⟩ := h
              cases h
              obtain ⟨b, hs, rfl⟩ := ih s.length (by simp only [List.length_cons]; omega) hp rfl
              exact ⟨_, .plain hq (Bool.eq_false_iff.2 hb) (Nat.not_lt.1 hc) hs, rfl⟩

theorem pieces?_eq_some_iff {s r : List σ} {ps : List (Piece σ)} :
    pieces? s = some (ps, r) ↔ ∃ b, ClosedString b ps ∧ s = b ++ r := by
  constructor
  · exact closedString_of_pieces?
  · rintro ⟨b, hb, rfl⟩
    exact hb.pieces? r

end Keystroke.Json
