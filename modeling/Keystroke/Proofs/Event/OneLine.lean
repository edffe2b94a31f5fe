import Keystroke.Command.ShowTrace
import Keystroke.Proofs.Event.Describe
import Keystroke.Proofs.Graphic
import Keystroke.Proofs.KeyName

namespace Keystroke

def Nameable (labels : Labels) (c : CodePoint) : Prop :=
  Graphic c ∨ ∃ entry ∈ labels.entries, c ∈ entry.2

variable {labels : Labels}

theorem nameable_of_graphic {t : Text} (h : ∀ c ∈ t, Graphic c) : ∀ c ∈ t, Nameable labels c :=
  fun c hc => .inl (h c hc)

theorem Labels.mem_of_find? {id label : Text} (h : labels.find? id = some label) :
    ∃ entry ∈ labels.entries, entry.2 = label := by
  obtain ⟨entry, he, hl⟩ := Option.map_eq_some_iff.1 h
  exact ⟨entry, List.mem_of_find?_eq_some he, hl⟩

theorem nameable_resolve (id : Text) {byDefault : Text} (h : ∀ c ∈ byDefault, Graphic c) :
    ∀ c ∈ labels.resolve id byDefault, Nameable labels c := by
  rw [Labels.resolve]
  cases hl : labels.find? id with
  | none => exact nameable_of_graphic h
  | some label =>
      obtain ⟨entry, he, rfl⟩ := Labels.mem_of_find? hl
      exact fun c hc => .inr ⟨entry, he, hc⟩

namespace KeyCode

open KeyTable

theorem graphic_character {code : Int}
    (h : letters.contains code = true ∨ digits.contains code = true) :
    ∀ c ∈ character code, Graphic c := by
  have hall : ∀ code ∈ letters.toList ++ digits.toList, ∀ c ∈ character code, Graphic c := by decide
  exact hall code (List.mem_append.2 (h.imp CodeRange.mem_toList.2 CodeRange.mem_toList.2))

theorem graphic_row {row : Row} (h : row ∈ standardRows) : ∀ c ∈ row.label, Graphic c := by
  have hall : ∀ row ∈ standardRows, ∀ c ∈ row.label, Graphic c := by decide +kernel
  exact hall row h

theorem nameable_text (code : Int) : ∀ c ∈ text code labels, Nameable labels c := by
  cases origin code with
  | character h =>
      rw [text_character h]
      exact nameable_of_graphic (graphic_character h)
  | numpad h =>
      rw [text_numpad h, text_character (.inr (contains_sub_offset h))]
      refine List.forall_mem_append.2 ⟨List.forall_mem_append.2 ⟨?_, ?_⟩, ?_⟩
      · exact nameable_resolve _ (by decide)
      · exact nameable_of_graphic (by decide)
      · exact nameable_of_graphic (graphic_character (.inr (contains_sub_offset h)))
  | row h =>
      rw [text_row h]
      exact nameable_resolve _ (graphic_row h)
  | unknown h =>
      rw [text_unknown h]
      refine List.forall_mem_append.2 ⟨nameable_resolve _ (by decide), List.forall_mem_append.2 ⟨?_, ?_⟩⟩
      · exact nameable_of_graphic (by decide)
      · exact nameable_of_graphic fun c => graphic_of_mem_hex

end KeyCode

theorem Modifier.nameable_maskText (mask : Int) : ∀ c ∈ maskText mask labels, Nameable labels c := by
  have hlabels : ∀ m ∈ all, ∀ c ∈ m.label, Graphic c := by decide
  refine forall_mem_joined (nameable_of_graphic (by decide)) fun t ht => ?_
  obtain ⟨m, hm, rfl⟩ := List.mem_map.1 ht
  exact nameable_resolve m.labelId (hlabels m (List.mem_filter.1 hm).1)

namespace Event

theorem graphic_kindText (kind : Int) : ∀ c ∈ kindText kind, Graphic c := by
  have hnames : ∀ k ∈ Kind.all, ∀ c ∈ Text.ofString k.name, Graphic c := by decide
  rw [kindText]
  cases hk : Kind.ofCode? kind with
  | none => decide
  | some k => exact hnames k (List.mem_of_find?_eq_some hk)

theorem graphic_locationName (l : KeyLocation) : ∀ c ∈ Text.ofString l.name, Graphic c := by
  cases l <;> decide

/-- The characters of a description: those of names, and that of the event unless it is shown by a name. -/
def Visible (labels : Labels) (char : Text) (c : CodePoint) : Prop :=
  Nameable labels c ∨ c ∈ char ∧ ¬ (char = [c] ∧ (c.val : Int) ∈ namedChars)

variable {char : Text}

theorem visible_of_nameable {t : Text} (h : ∀ c ∈ t, Nameable labels c) : ∀ c ∈ t, Visible labels char c :=
  fun c hc => .inl (h c hc)

theorem visible_of_graphic {t : Text} (h : ∀ c ∈ t, Graphic c) : ∀ c ∈ t, Visible labels char c :=
  visible_of_nameable (nameable_of_graphic h)

theorem visible_quoted (hn : ∀ d, char = [d] → (d.val : Int) ∉ namedChars) :
    ∀ c ∈ "'" ++ char ++ "'", Visible labels char c := by
  have hquote : ∀ c ∈ ("'" : Text), Visible labels char c := visible_of_graphic (by decide)
  have hchar : ∀ c ∈ char, Visible labels char c := fun c hc => .inr ⟨hc, fun h => hn c h.1 h.2⟩
  exact List.forall_mem_append.2 ⟨List.forall_mem_append.2 ⟨hquote, hchar⟩, hquote⟩

theorem visible_charText (char : Text) : ∀ c ∈ charText char labels, Visible labels char c := by
  unfold charText
  split
  · rename_i d
    split
    · exact visible_of_nameable (KeyCode.nameable_text _)
    · rename_i hd
      refine visible_quoted fun d' he => ?_
      rwa [← List.singleton_inj.1 he]
  · rename_i hne
    exact visible_quoted fun d he => absurd he (hne d)

theorem visible_part {front behind : Text} (hf : ∀ c ∈ front, Graphic c)
    (hb : ∀ c ∈ behind, Visible labels char c) : ∀ c ∈ front ++ behind, Visible labels char c :=
  List.forall_mem_append.2 ⟨visible_of_graphic hf, hb⟩

theorem visible_described (e : Event) : ∀ c ∈ e.described labels, Visible labels e.char c := by
  have hnumber (z : Int) : ∀ c ∈ Numeral.decimal z, Visible labels e.char c :=
    visible_of_graphic fun c => graphic_of_mem_decimal
  refine forall_mem_joined (visible_of_graphic (by decide)) fun part hp => ?_
  simp only [parts, List.mem_append, List.mem_cons, List.not_mem_nil, or_false, List.mem_map,
    Option.mem_toList] at hp
  rcases hp with ((rfl | rfl | rfl | rfl) | ⟨shown, hm, rfl⟩) | rfl | rfl
  · exact visible_of_graphic (graphic_kindText e.kind)
  · exact visible_part (by decide) (hnumber e.keyCode)
  · exact visible_part (by decide) (visible_of_nameable (KeyCode.nameable_text e.keyCode))
  · exact visible_part (by decide) (visible_charText e.char)
  · split at hm
    · cases hm
    · cases hm
      exact visible_part (by decide) (visible_of_nameable (Modifier.nameable_maskText e.modifiers))
  · exact visible_part (by decide) (visible_of_graphic (graphic_locationName _))
  · exact visible_part (by decide) (hnumber e.rawCode)

theorem mem_described_of_mem_charText {e : Event} {c : CodePoint} (h : c ∈ charText e.char labels) :
    c ∈ e.described labels := by
  refine mem_joined_of_mem (p := "key_char=" ++ charText e.char labels) ?_ (List.mem_append_right _ h)
  simp [parts]

def OneLine (t : Text) : Prop := CodePoint.ofChar '\n' ∉ t ∧ CodePoint.ofChar '\r' ∉ t

instance (t : Text) : Decidable (OneLine t) := inferInstanceAs (Decidable (_ ∧ _))

theorem oneLine_append {t t' : Text} : OneLine (t ++ t') ↔ OneLine t ∧ OneLine t' := by
  simp only [OneLine, List.mem_append, not_or]
  exact and_and_and_comm

theorem oneLine_of_graphic {t : Text} (h : ∀ c ∈ t, Graphic c) : OneLine t :=
  ⟨fun hm => absurd (h _ hm) (by decide), fun hm => absurd (h _ hm) (by decide)⟩

theorem not_nameable {c : CodePoint} (hc : ¬ Graphic c) (hl : ∀ entry ∈ labels.entries, c ∉ entry.2) :
    ¬ Nameable labels c := by
  rintro (h | ⟨entry, he, h⟩)
  · exact hc h
  · exact hl entry he h

theorem charText_carriageReturn : charText "\r" labels = "'\r'" := rfl

theorem lineFeed_notMem_described (hl : ∀ entry ∈ labels.entries, OneLine entry.2) {e : Event}
    (hc : e.char.length = 1) : CodePoint.ofChar '\n' ∉ e.described labels := by
  obtain ⟨d, hd⟩ := List.length_eq_one_iff.1 hc
  intro h
  rcases visible_described e _ h with h | ⟨h, hnot⟩
  · exact not_nameable (by decide) (fun entry he => (hl entry he).1) h
  · rw [hd, List.mem_singleton] at h
    subst h
    exact hnot ⟨hd, by decide⟩

theorem carriageReturn_mem_described_iff (hl : ∀ entry ∈ labels.entries, OneLine entry.2) {e : Event}
    (hc : e.char.length = 1) : CodePoint.ofChar '\r' ∈ e.described labels ↔ e.char = "\r" := by
  obtain ⟨d, hd⟩ := List.length_eq_one_iff.1 hc
  constructor
  · intro h
    rcases visible_described e _ h with h | ⟨h, -⟩
    · exact absurd h (not_nameable (by decide) fun entry he => (hl entry he).2)
    · rw [hd, List.mem_singleton] at h
      rw [hd, ← h]
      rfl
  · intro h
    refine mem_described_of_mem_charText ?_
    rw [h, charText_carriageReturn]
    decide

theorem oneLine_described_iff (hl : ∀ entry ∈ labels.entries, OneLine entry.2) {e : Event}
    (hc : e.char.length = 1) : OneLine (e.described labels) ↔ e.char ≠ "\r" := by
  rw [OneLine, and_iff_right (lineFeed_notMem_described hl hc), carriageReturn_mem_described_iff hl hc]

/-- With overrides that hold no line end, the description of an event with a single character is one line unless
that character is the carriage return, whatever the rest of the event is. A line feed is never in it. -/
theorem describe_oneLine (hl : ∀ entry ∈ labels.entries, OneLine entry.2) {e : Event}
    (hc : e.char.length = 1) :
    (∀ t, e.describe labels = .ok t → (OneLine t ↔ e.char ≠ "\r") ∧ CodePoint.ofChar '\n' ∉ t) ∧
    ∀ l, Command.ShowTrace.line labels e = .ok l → (OneLine l ↔ e.char ≠ "\r") := by
  constructor
  · intro t ht
    obtain ⟨-, rfl⟩ := describe_eq_ok_iff.1 ht
    exact ⟨oneLine_described_iff hl hc, lineFeed_notMem_described hl hc⟩
  · intro l h
    obtain ⟨time, htime, h⟩ := exists_of_bind h
    obtain ⟨t, ht, h⟩ := exists_of_bind h
    cases h
    obtain ⟨-, rfl⟩ := Numeral.written_eq_ok_iff.1 htime
    obtain ⟨-, rfl⟩ := describe_eq_ok_iff.1 ht
    rw [oneLine_append, oneLine_append, oneLine_described_iff hl hc]
    exact and_iff_right ⟨oneLine_of_graphic fun c => graphic_of_mem_decimal, by decide⟩

theorem describe_oneLine_lineFeed :
    ∃ e t l, typed "\n" 1 = .ok e ∧ e.char.length = 1 ∧
      (∀ entry ∈ (Labels.ofList [("enter", "Return")]).entries, OneLine entry.2) ∧
      e.describe (.ofList [("enter", "Return")]) = .ok t ∧ OneLine t ∧
      Command.ShowTrace.line (.ofList [("enter", "Return")]) e = .ok l ∧ OneLine l := by
  have hl : ∀ entry ∈ (Labels.ofList [("enter", "Return")]).entries, OneLine entry.2 := by decide
  obtain ⟨hdescribe, hline⟩ := describe_oneLine hl (e := ⟨2400, 1, 0, 0, 0, "\n", 0, none⟩) rfl
  exact ⟨_, _, _, rfl, rfl, hl, rfl, (hdescribe _ rfl).1.2 (by decide), rfl, (hline _ rfl).2 (by decide)⟩

theorem describe_carriageReturn :
    ∃ e t, typed "\r" 1 = .ok e ∧ e.char.length = 1 ∧ e.describe .empty = .ok t ∧ ¬ OneLine t :=
  ⟨_, _, rfl, rfl, describe_of_describable (by decide) _,
    fun h => h.2 (mem_described_of_mem_charText (by decide))⟩

end Event

end Keystroke
