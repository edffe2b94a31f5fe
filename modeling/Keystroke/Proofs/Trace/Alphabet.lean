import Keystroke.Proofs.Graphic
import Keystroke.Proofs.Trace.Line

namespace Keystroke.Trace

open Json Numeral

theorem graphic_of_mem_escapedChar {c x : CodePoint} (hx : x ∈ escapedChar c) :
    Graphic x ∨ x = c ∧ 0x7F ≤ c.val := by
  have hletter : ∀ p ∈ escapes, ∀ x ∈ ([.ofChar '\\', .ofChar p.1] : Text), Graphic x := by decide
  have hmark : ∀ x ∈ (("\\u" : Text)), Graphic x := by decide
  rcases escapedChar_cases c with ⟨p, hp, -, he⟩ | ⟨-, he⟩ | ⟨hle, -, -, he⟩
  · rw [he] at hx
    exact .inl (hletter p hp x hx)
  · rw [he, zeroPadded_natural] at hx
    rcases List.mem_append.1 hx with hx | hx
    · exact .inl (hmark x hx)
    · obtain ⟨d, hd, rfl⟩ := List.mem_map.1 hx
      exact .inl (graphic_ofDigit (lt_of_mem_paddedDigits (by decide) hd))
  · rw [he] at hx
    rw [List.mem_singleton.1 hx]
    by_cases h : 0x7F ≤ c.val
    · exact .inr ⟨rfl, h⟩
    · exact .inl ⟨hle, Nat.not_le.1 h⟩

theorem graphic_of_mem_name {f : Field} {x : CodePoint} (hx : x ∈ f.name) : Graphic x := by
  have h : ∀ f ∈ Field.all, ∀ x ∈ f.name, Graphic x := by decide
  exact h f f.mem_all x hx

theorem mem_valueText {e : Event} {c x : CodePoint} {f : Field} (hx : x ∈ valueText e c f) :
    Graphic x ∨ ∃ t ∈ e.source, x ∈ t ∧ 0x7F ≤ x.val := by
  rcases f with _ | f | _
  · exact .inl (graphic_of_mem_decimal hx)
  · cases f <;> exact .inl (graphic_of_mem_decimal hx)
  · have hquote : ∀ x ∈ (("\"" : Text)), Graphic x := by decide
    have hnull : ∀ x ∈ (("null" : Text)), Graphic x := by decide
    rw [valueText] at hx
    cases hs : e.source with
    | none =>
        rw [hs] at hx
        exact .inl (hnull x hx)
    | some t =>
        rw [hs, sourceText, string] at hx
        simp only [List.mem_append] at hx
        rcases hx with (hx | hx) | hx
        · exact .inl (hquote x hx)
        · obtain ⟨y, hy, hxy⟩ := List.mem_flatMap.1 hx
          rcases graphic_of_mem_escapedChar hxy with h | ⟨rfl, h⟩
          · exact .inl h
          · exact .inr ⟨t, rfl, hy, h⟩
        · exact .inl (hquote x hx)

theorem mem_recordText {e : Event} {c x : CodePoint} (hx : x ∈ recordText e c) :
    Graphic x ∨ ∃ t ∈ e.source, x ∈ t ∧ 0x7F ≤ x.val := by
  have hmarks : ∀ t ∈ (["\x7b", "\x7d", ",", "\"", "\":"] : List Text), ∀ x ∈ t, Graphic x := by
    decide
  rw [recordText] at hx
  simp only [List.mem_append] at hx
  rcases hx with (hx | hx) | hx
  · exact .inl (hmarks _ (by simp) x hx)
  · rcases mem_joined hx with hx | ⟨p, hp, hx⟩
    · exact .inl (hmarks _ (by simp) x hx)
    · obtain ⟨f, -, rfl⟩ := List.mem_map.1 hp
      simp only [member, List.mem_append] at hx
      rcases hx with ((hx | hx) | hx) | hx
      · exact .inl (hmarks _ (by simp) x hx)
      · exact .inl (graphic_of_mem_name hx)
      · exact .inl (hmarks _ (by simp) x hx)
      · exact mem_valueText hx
  · exact .inl (hmarks _ (by simp) x hx)

end Keystroke.Trace
