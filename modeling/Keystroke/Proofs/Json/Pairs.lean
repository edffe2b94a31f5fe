import Keystroke.Json.Reader
import Keystroke.Proofs.Utf8

namespace Keystroke

namespace CodePoint

theorem isSurrogate_eq (c : CodePoint) :
    c.isSurrogate = (c.isHighSurrogate || c.isLowSurrogate) := by
  rw [Bool.eq_iff_iff]
  simp only [isSurrogate, isHighSurrogate, isLowSurrogate, Bool.or_eq_true, Bool.and_eq_true,
    decide_eq_true_eq]
  omega

theorem not_low_of_high {c : CodePoint} (h : c.isHighSurrogate = true) : c.isLowSurrogate = false := by
  simp only [isHighSurrogate, isLowSurrogate, Bool.and_eq_true, decide_eq_true_eq,
    Bool.and_eq_false_iff, decide_eq_false_iff_not] at h ⊢
  omega

end CodePoint

namespace Text

/-- Whether a high surrogate has a low one right behind it. -/
def hasPair : Text → Bool
  | [] => false
  | c :: t => (c.isHighSurrogate && (t.head?.any CodePoint.isLowSurrogate)) || hasPair t

def NoPair (t : Text) : Prop := t.hasPair = false

instance (t : Text) : Decidable t.NoPair := inferInstanceAs (Decidable (_ = _))

theorem noPair_nil : NoPair [] := rfl

theorem noPair_cons {c : CodePoint} {t : Text} :
    NoPair (c :: t) ↔
      (c.isHighSurrogate = true → ∀ d ∈ t.head?, d.isLowSurrogate = false) ∧ NoPair t := by
  rw [NoPair, hasPair, Bool.or_eq_false_iff, Bool.and_eq_false_imp, Option.any_eq_false_iff_get]
  cases t <;> simp [NoPair]

theorem noPair_of_noSurrogate {t : Text} (h : t.NoSurrogate) : t.NoPair := by
  induction t with
  | nil => rfl
  | cons c t ih =>
      obtain ⟨hc, ht⟩ := List.forall_mem_cons.1 h
      rw [CodePoint.isSurrogate_eq, Bool.or_eq_false_iff] at hc
      refine noPair_cons.2 ⟨fun hhigh => ?_, ih ht⟩
      rw [hc.1] at hhigh
      cases hhigh

end Text

namespace Json

theorem val_ofPair {high low : CodePoint} (hh : high.isHighSurrogate = true)
    (hl : low.isLowSurrogate = true) :
    (ofPair high low).val = 0x10000 + (high.val - 0xD800) * 0x400 + (low.val - 0xDC00) := by
  simp only [CodePoint.isHighSurrogate, CodePoint.isLowSurrogate, Bool.and_eq_true,
    decide_eq_true_eq] at hh hl
  rw [ofPair, CodePoint.ofNat?, dif_pos (by omega)]
  rfl

theorem not_surrogate_ofPair {high low : CodePoint} (hh : high.isHighSurrogate = true)
    (hl : low.isLowSurrogate = true) :
    (ofPair high low).isHighSurrogate = false ∧ (ofPair high low).isLowSurrogate = false := by
  have hv := val_ofPair hh hl
  simp only [CodePoint.isHighSurrogate, CodePoint.isLowSurrogate, Bool.and_eq_false_iff,
    decide_eq_false_iff_not]
  omega

def FromText (ps : List (Piece CodePoint)) : Prop :=
  ∀ c, .plain c ∈ ps → c.isSurrogate = false

theorem stringText_pair {high low : CodePoint} (hh : high.isHighSurrogate = true)
    (hl : low.isLowSurrogate = true) (ps : List (Piece CodePoint)) :
    stringText (.escaped high :: .escaped low :: ps) = ofPair high low :: stringText ps := by
  rw [stringText.eq_def]
  simp only [hh, hl, if_true]

theorem stringText_escaped {c : CodePoint} {ps : List (Piece CodePoint)}
    (h : c.isHighSurrogate = true → ∀ low, ps.head? = some (.escaped low) → low.isLowSurrogate = false) :
    stringText (.escaped c :: ps) = c :: stringText ps := by
  rw [stringText.eq_def]
  cases hc : c.isHighSurrogate with
  | false => simp only [hc, Bool.false_eq_true, if_false]
  | true =>
      simp only [hc, if_true]
      cases ps with
      | nil => rfl
      | cons p ps =>
          cases p with
          | plain d => rfl
          | escaped low => simp only [h hc low rfl, Bool.false_eq_true, if_false]

theorem escaped_cases (c : CodePoint) (ps : List (Piece CodePoint)) :
    (∃ low ps', c.isHighSurrogate = true ∧ low.isLowSurrogate = true ∧ ps = .escaped low :: ps') ∨
      (c.isHighSurrogate = true →
        ∀ low, ps.head? = some (.escaped low) → low.isLowSurrogate = false) := by
  by_cases h : ∃ low ps', c.isHighSurrogate = true ∧ low.isLowSurrogate = true ∧
      ps = .escaped low :: ps'
  · exact .inl h
  · refine .inr fun hc low hlow => Bool.eq_false_iff.2 fun hl => h ?_
    obtain ⟨ps', rfl⟩ := List.head?_eq_some_iff.1 hlow
    exact ⟨low, ps', hc, hl, rfl⟩

theorem not_low_of_head {ps : List (Piece CodePoint)} (hps : FromText ps)
    (h : ∀ low, ps.head? = some (.escaped low) → low.isLowSurrogate = false) :
    ∀ d ∈ (stringText ps).head?, d.isLowSurrogate = false := by
  intro d hd
  cases ps with
  | nil => cases hd
  | cons p ps =>
      cases p with
      | plain c =>
          cases hd
          have hc := hps d List.mem_cons_self
          rw [CodePoint.isSurrogate_eq, Bool.or_eq_false_iff] at hc
          exact hc.2
      | escaped c =>
          rcases escaped_cases c ps with ⟨low, ps', hh, hl, rfl⟩ | hc
          · rw [stringText_pair hh hl, List.head?_cons, Option.mem_some_iff] at hd
            rw [← hd]
            exact (not_surrogate_ofPair hh hl).2
          · rw [stringText_escaped hc, List.head?_cons, Option.mem_some_iff] at hd
            rw [← hd]
            exact h c rfl

theorem FromText.tail {p : Piece CodePoint} {ps : List (Piece CodePoint)} (h : FromText (p :: ps)) :
    FromText ps := fun c hc => h c (List.mem_cons_of_mem p hc)

/-- No string that is read holds a pair in two halves. -/
theorem noPair_stringText {ps : List (Piece CodePoint)} (h : FromText ps) :
    (stringText ps).NoPair := by
  -- the induction is on the length: a pair is two pieces
  induction hn : ps.length using Nat.strongRecOn generalizing ps with
  | ind n ih =>
      subst hn
      cases ps with
      | nil => exact Text.noPair_nil
      | cons p ps =>
          cases p with
          | plain c =>
              have hc := h c List.mem_cons_self
              rw [CodePoint.isSurrogate_eq, Bool.or_eq_false_iff] at hc
              refine Text.noPair_cons.2 ⟨fun hh => ?_, ih _ (Nat.lt_succ_self _) h.tail rfl⟩
              rw [hc.1] at hh
              cases hh
          | escaped c =>
              rcases escaped_cases c ps with ⟨low, ps', hh, hl, rfl⟩ | hc
              · have hlength : ps'.length < (Piece.escaped c :: .escaped low :: ps').length := by
                  simp only [List.length_cons]
                  omega
                rw [stringText_pair hh hl]
                refine Text.noPair_cons.2 ⟨fun hp => ?_, ih _ hlength h.tail.tail rfl⟩
                rw [(not_surrogate_ofPair hh hl).1] at hp
                cases hp
              · rw [stringText_escaped hc]
                exact Text.noPair_cons.2 ⟨fun hh => not_low_of_head h.tail (hc hh),
                  ih _ (Nat.lt_succ_self _) h.tail rfl⟩

end Json

end Keystroke
