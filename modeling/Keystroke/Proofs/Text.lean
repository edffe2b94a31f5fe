import Keystroke.Text

namespace Keystroke

theorem mem_joined {separator : Text} {x : CodePoint} {parts : List Text}
    (h : x ∈ Text.joined separator parts) : x ∈ separator ∨ ∃ p ∈ parts, x ∈ p := by
  fun_induction Text.joined separator parts with
  | case1 => cases h
  | case2 p => exact .inr ⟨p, by simp, h⟩
  | case3 p parts hne ih =>
      simp only [List.mem_append] at h
      rcases h with (h | h) | h
      · exact .inr ⟨p, by simp, h⟩
      · exact .inl h
      · rcases ih h with h | ⟨q, hq, hx⟩
        · exact .inl h
        · exact .inr ⟨q, List.mem_cons_of_mem p hq, hx⟩

theorem forall_mem_joined {P : CodePoint → Prop} {separator : Text} (hs : ∀ c ∈ separator, P c)
    {parts : List Text} (h : ∀ t ∈ parts, ∀ c ∈ t, P c) : ∀ c ∈ Text.joined separator parts, P c := by
  intro c hc
  rcases mem_joined hc with hc | ⟨t, ht, hc⟩
  · exact hs c hc
  · exact h t ht c hc

theorem mem_joined_of_mem {separator : Text} {x : CodePoint} {p : Text} {parts : List Text}
    (hp : p ∈ parts) (hx : x ∈ p) : x ∈ Text.joined separator parts := by
  fun_induction Text.joined separator parts with
  | case1 => cases hp
  | case2 q => rwa [List.mem_singleton.1 hp] at hx
  | case3 q parts hne ih =>
      rcases List.mem_cons.1 hp with rfl | hp
      · simp [hx]
      · simp [ih hp]

namespace Text

variable {mark : CodePoint}

theorem cutAt?_append {t : Text} (h : mark ∉ t) (r : Text) :
    cutAt? mark (t ++ mark :: r) = some (t, r) := by
  induction t with
  | nil => simp [cutAt?]
  | cons c t ih =>
      simp only [List.mem_cons, not_or] at h
      rw [List.cons_append, cutAt?, if_neg (Ne.symm h.1), ih h.2]
      rfl

theorem append_mark_inj {t t' r r' : Text} (h : mark ∉ t) (h' : mark ∉ t')
    (he : t ++ mark :: r = t' ++ mark :: r') : t = t' ∧ r = r' := by
  have hcut := congrArg (cutAt? mark) he
  rw [cutAt?_append h, cutAt?_append h'] at hcut
  exact Prod.mk.inj (Option.some.inj hcut)

theorem splitAt_of_notMem {t : Text} (h : mark ∉ t) : splitAt mark t = [t] := by
  induction t with
  | nil => rfl
  | cons c t ih =>
      simp only [List.mem_cons, not_or] at h
      rw [splitAt, if_neg (Ne.symm h.1), ih h.2]

theorem splitAt_append {t : Text} (h : mark ∉ t) (r : Text) :
    splitAt mark (t ++ mark :: r) = t :: splitAt mark r := by
  induction t with
  | nil => simp [splitAt]
  | cons c t ih =>
      simp only [List.mem_cons, not_or] at h
      rw [List.cons_append, splitAt, if_neg (Ne.symm h.1), ih h.2]

theorem splitAt_joined {parts : List Text} (hne : parts ≠ []) (h : ∀ p ∈ parts, mark ∉ p) :
    splitAt mark (joined [mark] parts) = parts := by
  fun_induction joined [mark] parts with
  | case1 => exact absurd rfl hne
  | case2 p => exact splitAt_of_notMem (h p List.mem_cons_self)
  | case3 p parts hp ih =>
      obtain ⟨hmark, hrest⟩ := List.forall_mem_cons.1 h
      rw [List.append_assoc, List.singleton_append, splitAt_append hmark, ih hp hrest]

theorem joined_ne_nil {separator p : Text} (hp : p ≠ []) (parts : List Text) :
    joined separator (p :: parts) ≠ [] := by
  cases parts <;> simp [joined, hp]

/-- Parts that are not empty are told from no parts at all. -/
theorem joined_inj {parts parts' : List Text} (h : ∀ p ∈ parts, p ≠ [] ∧ mark ∉ p)
    (h' : ∀ p ∈ parts', p ≠ [] ∧ mark ∉ p) (he : joined [mark] parts = joined [mark] parts') :
    parts = parts' := by
  cases parts with
  | nil =>
      cases parts' with
      | nil => rfl
      | cons p' rest => exact absurd he.symm (joined_ne_nil (h' p' List.mem_cons_self).1 rest)
  | cons p rest =>
      cases parts' with
      | nil => exact absurd he (joined_ne_nil (h p List.mem_cons_self).1 rest)
      | cons p' rest' =>
          rw [← splitAt_joined (List.cons_ne_nil p rest) fun q hq => (h q hq).2, he,
            splitAt_joined (List.cons_ne_nil p' rest') fun q hq => (h' q hq).2]

end Text

end Keystroke
