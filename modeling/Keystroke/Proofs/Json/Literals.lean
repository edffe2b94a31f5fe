import Keystroke.Json.Value
import Keystroke.Proofs.Graphic

namespace Keystroke

open Numeral

namespace Text

theorem noSurrogate_of_graphic {t : Text} (h : ∀ c ∈ t, Graphic c) : t.NoSurrogate :=
  fun c hc => (h c hc).not_surrogate

theorem not_surrogate_of_isPrintable {c : CodePoint} (h : c.isPrintable = true) :
    c.isSurrogate = false := by
  have hrange : ∃ range ∈ CodePoint.unprintable, range.1 ≤ 0xD800 ∧ 0xDFFF ≤ range.2 := by
    decide +kernel
  obtain ⟨range, hr, hfirst, hlast⟩ := hrange
  rw [Bool.eq_false_iff]
  intro hs
  simp only [CodePoint.isSurrogate, Bool.and_eq_true, decide_eq_true_eq] at hs
  have hin : c.isIn CodePoint.unprintable = true := by
    refine List.any_eq_true.2 ⟨range, hr, ?_⟩
    simp only [Bool.and_eq_true, decide_eq_true_eq]
    omega
  rw [CodePoint.isPrintable, hin] at h
  cases h

theorem noSurrogate_spelledOut (c : CodePoint) : (spelledOut c).NoSurrogate := by
  have hmark (t : Text) (ht : t ∈ (["\\x", "\\u", "\\U"] : List Text)) : ∀ x ∈ t, Graphic x := by
    revert t
    decide
  have hdigits (width : Nat) := graphic_of_mem_zeroPadded width (t := natural 16 c.val)
    fun _ => graphic_of_mem_natural (by decide) (by decide)
  apply noSurrogate_of_graphic
  rw [spelledOut]
  split
  · exact List.forall_mem_append.2 ⟨hmark _ (by simp), hdigits _⟩
  split
  · exact List.forall_mem_append.2 ⟨hmark _ (by simp), hdigits _⟩
  · exact List.forall_mem_append.2 ⟨hmark _ (by simp), hdigits _⟩

theorem noSurrogate_quotedChar {quote : CodePoint} (hq : quote.isSurrogate = false) (c : CodePoint) :
    (quotedChar quote c).NoSurrogate := by
  have hmark (t : Text) (ht : t ∈ (["\\t", "\\n", "\\r"] : List Text)) : t.NoSurrogate := by
    revert t
    decide
  rw [quotedChar]
  split
  · rename_i h
    intro x hx
    rcases List.mem_cons.1 hx with rfl | hx
    · decide
    · rw [List.mem_singleton.1 hx]
      rcases h with rfl | rfl
      · exact hq
      · decide
  split
  · exact hmark _ (by simp)
  split
  · exact hmark _ (by simp)
  split
  · exact hmark _ (by simp)
  split
  · intro x hx
    rw [List.mem_singleton.1 hx]
    exact not_surrogate_of_isPrintable ‹_›
  · exact noSurrogate_spelledOut c

theorem noSurrogate_quoted (t : Text) : t.quoted.NoSurrogate := by
  have hquote : (quoteFor t).isSurrogate = false := by
    rw [quoteFor]
    split <;> decide
  have hmark : NoSurrogate [quoteFor t] := List.forall_mem_singleton.2 hquote
  refine noSurrogate_append.2 ⟨noSurrogate_append.2 ⟨hmark, ?_⟩, hmark⟩
  intro x hx
  obtain ⟨c, -, hc⟩ := List.mem_flatMap.1 hx
  exact noSurrogate_quotedChar hquote c x hc

end Text

namespace Json.Value

open Text

theorem noSurrogate_word (t : Text)
    (ht : t ∈ (["None", "True", "False", "[", "]", "\x7b", "\x7d", ", ", ": "] : List Text)) :
    t.NoSurrogate := by
  revert t
  decide

mutual

theorem noSurrogate_literal : ∀ v : Value, v.literal.NoSurrogate
  | null => noSurrogate_word "None" (by simp)
  | bool true => noSurrogate_word "True" (by simp)
  | bool false => noSurrogate_word "False" (by simp)
  | integer n => noSurrogate_of_graphic fun _ => graphic_of_mem_decimal
  | real x => noSurrogate_of_graphic x.graphic_of_mem_text
  | string t => noSurrogate_quoted t
  | array vs => by
      rw [literal]
      refine noSurrogate_append.2 ⟨noSurrogate_append.2 ⟨noSurrogate_word _ (by simp), ?_⟩,
        noSurrogate_word _ (by simp)⟩
      exact forall_mem_joined (noSurrogate_word _ (by simp)) (noSurrogate_literals vs)
  | object ms => by
      rw [literal]
      refine noSurrogate_append.2 ⟨noSurrogate_append.2 ⟨noSurrogate_word _ (by simp), ?_⟩,
        noSurrogate_word _ (by simp)⟩
      exact forall_mem_joined (noSurrogate_word _ (by simp)) (noSurrogate_memberLiterals ms)

theorem noSurrogate_literals : ∀ vs : List Value, ∀ t ∈ literals vs, t.NoSurrogate
  | [] => by simp [literals]
  | v :: vs => by
      rw [literals]
      exact List.forall_mem_cons.2 ⟨noSurrogate_literal v, noSurrogate_literals vs⟩

theorem noSurrogate_memberLiterals :
    ∀ ms : List (Text × Value), ∀ t ∈ memberLiterals ms, t.NoSurrogate
  | [] => by simp [memberLiterals]
  | (key, v) :: ms => by
      rw [memberLiterals]
      refine List.forall_mem_cons.2 ⟨?_, noSurrogate_memberLiterals ms⟩
      exact noSurrogate_append.2 ⟨noSurrogate_append.2 ⟨noSurrogate_quoted key,
        noSurrogate_word _ (by simp)⟩, noSurrogate_literal v⟩

end

end Json.Value

end Keystroke
