import Keystroke.Proofs.Event.Describe
import Keystroke.Proofs.KeyName
import Keystroke.Proofs.Modifier

namespace Keystroke

open Text

theorem Kind.mem_all (k : Kind) : k ∈ all := by
  cases k <;> decide

theorem KeyLocation.mem_all (l : KeyLocation) : l ∈ all := by
  cases l <;> decide

theorem Kind.ofCode?_eq_none_iff {code : Int} :
    ofCode? code = none ↔ code ∉ ([2400, 2401, 2402] : List Int) := by
  have hcodes : ([2400, 2401, 2402] : List Int) = all.map Kind.code := rfl
  rw [ofCode?, List.find?_eq_none, hcodes, List.mem_map]
  constructor
  · rintro h ⟨k, hk, rfl⟩
    exact h k hk (beq_self_eq_true _)
  · intro h k hk he
    exact h ⟨k, hk, beq_iff_eq.1 he⟩

theorem Kind.code_of_ofCode? {code : Int} {k : Kind} (h : ofCode? code = some k) : k.code = code := by
  simpa using List.find?_some h

theorem Kind.ofCode?_eq_iff {code code' : Int} :
    ofCode? code = ofCode? code' ↔ code = code' ∨
      code ∉ ([2400, 2401, 2402] : List Int) ∧ code' ∉ ([2400, 2401, 2402] : List Int) := by
  rw [← ofCode?_eq_none_iff, ← ofCode?_eq_none_iff]
  constructor
  · intro h
    cases hk : ofCode? code with
    | none => exact .inr ⟨rfl, h ▸ hk⟩
    | some k => exact .inl ((code_of_ofCode? hk).symm.trans (code_of_ofCode? (h ▸ hk)))
  · rintro (rfl | ⟨hk, hk'⟩)
    · rfl
    · rw [hk, hk']

theorem KeyLocation.code_ofCode {code : Int} (h : code ∈ ([1, 2, 3, 4] : List Int)) :
    (ofCode code).code = code := by
  have hall : ∀ code ∈ ([1, 2, 3, 4] : List Int), (ofCode code).code = code := by decide
  exact hall code h

theorem KeyLocation.ofCode_of_notMem {code : Int} (h : code ∉ ([1, 2, 3, 4] : List Int)) :
    ofCode code = unknown := by
  rw [ofCode]
  cases hf : all.find? (·.code == code) with
  | none => rfl
  | some l =>
      have hcode : l.code = code := by simpa using List.find?_some hf
      cases l with
      | unknown => rfl
      | standard | left | right | numpad =>
          rw [← hcode] at h
          exact absurd (by decide) h

theorem KeyLocation.ofCode_eq_iff {code code' : Int} :
    ofCode code = ofCode code' ↔ code = code' ∨
      code ∉ ([1, 2, 3, 4] : List Int) ∧ code' ∉ ([1, 2, 3, 4] : List Int) := by
  have hunknown : unknown.code ∉ ([1, 2, 3, 4] : List Int) := by decide
  constructor
  · intro h
    by_cases hc : code ∈ ([1, 2, 3, 4] : List Int)
    · by_cases hc' : code' ∈ ([1, 2, 3, 4] : List Int)
      · rw [← code_ofCode hc, h, code_ofCode hc']
        exact .inl rfl
      · rw [ofCode_of_notMem hc'] at h
        rw [← code_ofCode hc, h] at hc
        exact absurd hc hunknown
    · by_cases hc' : code' ∈ ([1, 2, 3, 4] : List Int)
      · rw [ofCode_of_notMem hc] at h
        rw [← code_ofCode hc', ← h] at hc'
        exact absurd hc' hunknown
      · exact .inr ⟨hc, hc'⟩
  · rintro (rfl | ⟨hc, hc'⟩)
    · rfl
    · rw [ofCode_of_notMem hc, ofCode_of_notMem hc']

namespace Event

theorem kindText_eq_iff {kind kind' : Int} :
    kindText kind = kindText kind' ↔ kind = kind' ∨
      kind ∉ ([2400, 2401, 2402] : List Int) ∧ kind' ∉ ([2400, 2401, 2402] : List Int) := by
  rw [← Kind.ofCode?_eq_iff, kindText, kindText]
  constructor
  · generalize Kind.ofCode? kind = k
    generalize Kind.ofCode? kind' = k'
    rcases k with - | - | - | - <;> rcases k' with - | - | - | - <;> decide
  · intro h
    rw [h]

theorem comma_notMem_kindText (kind : Int) : CodePoint.ofChar ',' ∉ kindText kind := by
  rw [kindText]
  rcases Kind.ofCode? kind with - | - | - | - <;> decide

theorem locationName_inj {l l' : KeyLocation} (h : ofString l.name = ofString l'.name) : l = l' := by
  have hall : ∀ l ∈ KeyLocation.all, ∀ l' ∈ KeyLocation.all,
      ofString l.name = ofString l'.name → l = l' := by decide
  exact hall l l.mem_all l' l'.mem_all h

theorem comma_notMem_locationName (l : KeyLocation) : CodePoint.ofChar ',' ∉ ofString l.name := by
  cases l <;> decide

theorem comma_notMem_maskText (mask : Int) : CodePoint.ofChar ',' ∉ Modifier.maskText mask .empty := by
  have hlabels : ∀ m ∈ Modifier.all, CodePoint.ofChar ',' ∉ m.label := by decide
  intro h
  rcases mem_joined h with h | ⟨t, ht, h⟩
  · exact absurd h (by decide)
  · obtain ⟨m, -, rfl⟩ := List.mem_map.1 ht
    exact hlabels m m.mem_all h

theorem comma_notMem_decimal (z : Int) : CodePoint.ofChar ',' ∉ Numeral.decimal z :=
  Numeral.notMem_decimal (by decide) (by decide) z

theorem text_namedChars : ∀ code ∈ namedChars, CodePoint.ofChar ',' ∉ KeyCode.text code .empty ∧
    (KeyCode.text code .empty).head? ≠ some (CodePoint.ofChar '\'') ∧
    ∀ code' ∈ namedChars, KeyCode.text code .empty = KeyCode.text code' .empty → code = code' := by
  simp only [KeyCode.text_eq]
  decide +kernel

theorem charText_named {c : CodePoint} (h : (c.val : Int) ∈ namedChars) (labels : Labels) :
    charText [c] labels = KeyCode.text c.val labels := if_pos h

theorem charText_quoted {c : CodePoint} (h : (c.val : Int) ∉ namedChars) (labels : Labels) :
    charText [c] labels = CodePoint.ofChar '\'' :: c :: "'" := if_neg h

theorem head?_named_append {code : Int} (h : code ∈ namedChars) (r : Text) :
    (KeyCode.text code .empty ++ CodePoint.ofChar ',' :: r).head? ≠ some (CodePoint.ofChar '\'') := by
  have hhead := (text_namedChars code h).2.1
  cases ht : KeyCode.text code .empty with
  | nil => exact fun hcomma => absurd (Option.some.inj hcomma) (by decide)
  | cons d t =>
      rw [ht] at hhead
      exact hhead

/-- A shown character is read back from the front of a text, although it can be a comma or a quote itself. -/
theorem charText_append_inj {c c' : CodePoint} {r r' : Text}
    (h : charText [c] .empty ++ CodePoint.ofChar ',' :: r =
      charText [c'] .empty ++ CodePoint.ofChar ',' :: r') : c = c' ∧ r = r' := by
  by_cases hc : (c.val : Int) ∈ namedChars
  · obtain ⟨hcomma, -, hinj⟩ := text_namedChars _ hc
    rw [charText_named hc] at h
    by_cases hc' : (c'.val : Int) ∈ namedChars
    · rw [charText_named hc'] at h
      obtain ⟨hname, hrest⟩ := append_mark_inj hcomma (text_namedChars _ hc').1 h
      exact ⟨CodePoint.ext (Int.ofNat.inj (hinj _ hc' hname)), hrest⟩
    · rw [charText_quoted hc'] at h
      exact absurd (congrArg List.head? h) (head?_named_append hc r)
  · rw [charText_quoted hc] at h
    by_cases hc' : (c'.val : Int) ∈ namedChars
    · rw [charText_named hc'] at h
      exact absurd (congrArg List.head? h.symm) (head?_named_append hc' r')
    · rw [charText_quoted hc'] at h
      simpa using h

def lastParts (e : Event) : Text :=
  ("key_location=" : Text) ++ (ofString (KeyLocation.ofCode e.location).name ++
    CodePoint.ofChar ',' :: (("raw_code=" : Text) ++ Numeral.decimal e.rawCode))

def laterParts (e : Event) (labels : Labels) : Text :=
  if e.modifiers = 0 then e.lastParts
  else ("modifiers=" : Text) ++
    (Modifier.maskText e.modifiers labels ++ CodePoint.ofChar ',' :: e.lastParts)

theorem described_eq (e : Event) (labels : Labels) :
    e.described labels =
      kindText e.kind ++ CodePoint.ofChar ',' ::
      (("key_code=" : Text) ++ (Numeral.decimal e.keyCode ++ CodePoint.ofChar ',' ::
      (("key_text=" : Text) ++ (KeyCode.text e.keyCode labels ++ CodePoint.ofChar ',' ::
      (("key_char=" : Text) ++ (charText e.char labels ++ CodePoint.ofChar ',' ::
        e.laterParts labels)))))) := by
  have hcomma : ofString "," = [CodePoint.ofChar ','] := rfl
  by_cases h : e.modifiers = 0
  · simp [described, parts, laterParts, lastParts, h, joined, hcomma]
  · simp [described, parts, laterParts, lastParts, h, joined, hcomma]

theorem lastParts_ne (e : Event) (t : Text) : e.lastParts ≠ ("modifiers=" : Text) ++ t := by
  intro h
  have hhead : some (CodePoint.ofChar 'k') = some (CodePoint.ofChar 'm') := congrArg List.head? h
  exact absurd hhead (by decide)

/-- Events whose descriptions say the same. All that is no kind shows alike, and so does all that is no
location but the unknown one. -/
structure Alike (e e' : Event) : Prop where
  kind : e.kind = e'.kind ∨
    e.kind ∉ ([2400, 2401, 2402] : List Int) ∧ e'.kind ∉ ([2400, 2401, 2402] : List Int)
  keyCode : e.keyCode = e'.keyCode
  char : e.char = e'.char
  rawCode : e.rawCode = e'.rawCode
  location : e.location = e'.location ∨
    e.location ∉ ([1, 2, 3, 4] : List Int) ∧ e'.location ∉ ([1, 2, 3, 4] : List Int)
  modifiers : e.modifiers = 0 ∧ e'.modifiers = 0 ∨
    e.modifiers ≠ 0 ∧ e'.modifiers ≠ 0 ∧ e.modifiers % 512 = e'.modifiers % 512

variable {e e' : Event}

theorem lastParts_eq_iff : e.lastParts = e'.lastParts ↔
    (e.location = e'.location ∨
      e.location ∉ ([1, 2, 3, 4] : List Int) ∧ e'.location ∉ ([1, 2, 3, 4] : List Int)) ∧
    e.rawCode = e'.rawCode := by
  rw [← KeyLocation.ofCode_eq_iff]
  constructor
  · intro h
    obtain ⟨hlocation, hraw⟩ := append_mark_inj (comma_notMem_locationName _)
      (comma_notMem_locationName _) (List.append_cancel_left h)
    exact ⟨locationName_inj hlocation, Numeral.decimal_inj (List.append_cancel_left hraw)⟩
  · rintro ⟨hlocation, hraw⟩
    rw [lastParts, lastParts, hlocation, hraw]

theorem laterParts_eq_iff : e.laterParts .empty = e'.laterParts .empty ↔
    e.lastParts = e'.lastParts ∧
      (e.modifiers = 0 ∧ e'.modifiers = 0 ∨
        e.modifiers ≠ 0 ∧ e'.modifiers ≠ 0 ∧ e.modifiers % 512 = e'.modifiers % 512) := by
  rw [laterParts, laterParts, ← Modifier.maskText_eq_iff Modifier.distinguishable_empty]
  by_cases hm : e.modifiers = 0
  · by_cases hm' : e'.modifiers = 0
    · simp [hm, hm']
    · simpa [hm, hm'] using lastParts_ne e _
  · by_cases hm' : e'.modifiers = 0
    · simpa [hm, hm'] using (lastParts_ne e' _).symm
    · simp only [hm, hm', if_false, ne_eq, not_false_iff, true_and, false_and, false_or]
      constructor
      · exact fun h => (append_mark_inj (comma_notMem_maskText _) (comma_notMem_maskText _)
          (List.append_cancel_left h)).symm
      · rintro ⟨hlast, hmask⟩
        rw [hlast, hmask]

theorem described_eq_iff {c c' : CodePoint} (hc : e.char = [c]) (hc' : e'.char = [c']) :
    e.described .empty = e'.described .empty ↔
      kindText e.kind = kindText e'.kind ∧ e.keyCode = e'.keyCode ∧ c = c' ∧
        e.laterParts .empty = e'.laterParts .empty := by
  rw [described_eq, described_eq, hc, hc']
  constructor
  · intro h
    obtain ⟨hkind, h⟩ := append_mark_inj (comma_notMem_kindText _) (comma_notMem_kindText _) h
    obtain ⟨hcode, h⟩ := append_mark_inj (comma_notMem_decimal _) (comma_notMem_decimal _)
      (List.append_cancel_left h)
    have hkey := Numeral.decimal_inj hcode
    rw [hkey] at h
    obtain ⟨-, h⟩ := List.cons_eq_cons.1 (List.append_cancel_left (List.append_cancel_left h))
    exact ⟨hkind, hkey, charText_append_inj (List.append_cancel_left h)⟩
  · rintro ⟨hkind, hkey, rfl, hlater⟩
    rw [hkind, hkey, hlater]

theorem described_eq_iff_alike (hc : e.char.length = 1) (hc' : e'.char.length = 1) :
    e.described .empty = e'.described .empty ↔ Alike e e' := by
  obtain ⟨c, hc⟩ := List.length_eq_one_iff.1 hc
  obtain ⟨c', hc'⟩ := List.length_eq_one_iff.1 hc'
  rw [described_eq_iff hc hc', kindText_eq_iff, laterParts_eq_iff, lastParts_eq_iff]
  constructor
  · rintro ⟨hkind, hkey, rfl, ⟨hlocation, hraw⟩, hmodifiers⟩
    exact ⟨hkind, hkey, hc.trans hc'.symm, hraw, hlocation, hmodifiers⟩
  · intro h
    have hchar : c = c' := by simpa [hc, hc'] using h.char
    exact ⟨h.kind, h.keyCode, hchar, ⟨h.location, h.rawCode⟩, h.modifiers⟩

/-- An event is described just if its key code and its raw code have no more digits than can be written. The
descriptions of two events with a single character each are then the same just if the events are alike. The time
and the source of an event do not show under any overrides. -/
theorem describe_faithful (hc : e.char.length = 1) (hc' : e'.char.length = 1) :
    (∀ labels, (∃ t, e.describe labels = .ok t) ↔
      Numeral.FewDigits e.keyCode ∧ Numeral.FewDigits e.rawCode) ∧
    (∀ t t', e.describe .empty = .ok t → e'.describe .empty = .ok t' → (t = t' ↔ Alike e e')) ∧
    ∀ labels time source, describe { e with time, source } labels = e.describe labels := by
  refine ⟨fun labels => ?_, fun t t' ht ht' => ?_, fun labels time source => rfl⟩
  · simp only [describe_eq_ok_iff, exists_and_left, exists_eq, and_true, Describable]
  · obtain ⟨-, rfl⟩ := describe_eq_ok_iff.1 ht
    obtain ⟨-, rfl⟩ := describe_eq_ok_iff.1 ht'
    exact described_eq_iff_alike hc hc'

theorem describe_tooLong :
    ∃ e, pressed 65 1 0 Numeral.tooLong = .ok e ∧ e.char.length = 1 ∧
      ∀ labels, e.describe labels = .error ⟨⟩ :=
  ⟨_, rfl, rfl, describe_of_not_describable fun h => Numeral.not_fewDigits_tooLong h.2⟩

def commaPress (modifiers location : Int) (source : Option Text) : Event :=
  ⟨2401, 5, modifiers, 0, 0x2C, ",", location, source⟩

/-- The comma with two masks in which no flag is known, without a mask, and on either side. -/
theorem describe_faithful_comma :
    ∃ unknownMask otherMask noMask left right : Text,
      (commaPress 512 7 none).describe .empty = .ok unknownMask ∧
      (commaPress (-512) 0 (some "hook")).describe .empty = .ok otherMask ∧
      (commaPress 0 7 none).describe .empty = .ok noMask ∧
      (commaPress 0 2 none).describe .empty = .ok left ∧
      (commaPress 0 3 none).describe .empty = .ok right ∧
      unknownMask = otherMask ∧ unknownMask ≠ noMask ∧ left ≠ right ∧ left ≠ noMask := by
  have hcomma : Numeral.FewDigits 0x2C := by decide
  have hzero : Numeral.FewDigits 0 := by decide
  have hdescribe (modifiers location : Int) (source : Option Text) :
      ∃ t, (commaPress modifiers location source).describe .empty = .ok t :=
    ((@describe_faithful (commaPress modifiers location source) (commaPress 0 0 none) rfl rfl).1 .empty).2
      ⟨hcomma, hzero⟩
  obtain ⟨unknownMask, hunknown⟩ := hdescribe 512 7 none
  obtain ⟨otherMask, hother⟩ := hdescribe (-512) 0 (some "hook")
  obtain ⟨noMask, hno⟩ := hdescribe 0 7 none
  obtain ⟨left, hleft⟩ := hdescribe 0 2 none
  obtain ⟨right, hright⟩ := hdescribe 0 3 none
  refine ⟨unknownMask, otherMask, noMask, left, right, hunknown, hother, hno, hleft, hright, ?_, ?_, ?_, ?_⟩
  · refine ((describe_faithful rfl rfl).2.1 _ _ hunknown hother).2 ⟨.inl rfl, rfl, rfl, rfl, ?_, ?_⟩
    · exact .inr (by decide)
    · exact .inr (by decide)
  · exact mt ((describe_faithful rfl rfl).2.1 _ _ hunknown hno).1 fun h => absurd h.modifiers (by decide)
  · exact mt ((describe_faithful rfl rfl).2.1 _ _ hleft hright).1 fun h => absurd h.location (by decide)
  · exact mt ((describe_faithful rfl rfl).2.1 _ _ hleft hno).1 fun h => absurd h.location (by decide)

end Event

end Keystroke
