import Keystroke.Proofs.Trace.Torn

namespace Keystroke.Trace

variable {depth : Nat}

/-- Where the records of a trace end: each right behind its closing brace, one byte before the next. -/
def recordEnds : List Event → List Nat
  | [] => []
  | e :: es => (record e).length :: (recordEnds es).map ((record e).length + 1 + ·)

def wholeRecords (events : List Event) (m : Nat) : Nat := (recordEnds events).countP (· ≤ m)

def BetweenRecords (events : List Event) (m : Nat) : Prop :=
  m = 0 ∨ ∃ b ∈ recordEnds events, m = b ∨ m = b + 1

instance (events : List Event) (m : Nat) : Decidable (BetweenRecords events m) :=
  inferInstanceAs (Decidable (_ ∨ _))

theorem length_le_of_mem_recordEnds {e : Event} {es : List Event} {b : Nat}
    (h : b ∈ recordEnds (e :: es)) : (record e).length ≤ b := by
  rcases List.mem_cons.1 h with rfl | h
  · exact Nat.le_refl _
  · obtain ⟨a, -, rfl⟩ := List.mem_map.1 h
    omega

theorem wholeRecords_of_lt {e : Event} {es : List Event} {m : Nat} (h : m < (record e).length) :
    wholeRecords (e :: es) m = 0 := by
  rw [wholeRecords, List.countP_eq_zero]
  intro b hb
  have := length_le_of_mem_recordEnds hb
  simp only [decide_eq_true_eq]
  omega

theorem wholeRecords_behind (e : Event) (es : List Event) (j : Nat) :
    wholeRecords (e :: es) ((record e).length + 1 + j) = wholeRecords es j + 1 := by
  rw [wholeRecords, recordEnds, List.countP_cons_of_pos (by simp only [decide_eq_true_eq]; omega),
    List.countP_map]
  simp only [wholeRecords, Function.comp_def, Nat.add_le_add_iff_left]

theorem wholeRecords_brace (e : Event) (es : List Event) :
    wholeRecords (e :: es) (record e).length = 1 := by
  rw [wholeRecords, recordEnds, List.countP_cons_of_pos (by simp), List.countP_eq_zero.2]
  intro b hb
  obtain ⟨a, -, rfl⟩ := List.mem_map.1 hb
  simp only [decide_eq_true_eq]
  omega

theorem not_betweenRecords_of_lt {e : Event} {es : List Event} {m : Nat} (hm : m ≠ 0)
    (h : m < (record e).length) : ¬ BetweenRecords (e :: es) m := by
  rintro (rfl | ⟨b, hb, hbm⟩)
  · exact hm rfl
  · have := length_le_of_mem_recordEnds hb
    omega

theorem betweenRecords_behind {e : Event} {es : List Event} {j : Nat} :
    BetweenRecords (e :: es) ((record e).length + 1 + j) ↔ BetweenRecords es j := by
  constructor
  · rintro (h | ⟨b, hb, h⟩)
    · omega
    · rcases List.mem_cons.1 hb with rfl | hb
      · exact .inl (by omega)
      · obtain ⟨a, ha, rfl⟩ := List.mem_map.1 hb
        exact .inr ⟨a, ha, by omega⟩
  · rintro (rfl | ⟨a, ha, h⟩)
    · exact .inr ⟨(record e).length, List.mem_cons_self, by omega⟩
    · refine .inr ⟨(record e).length + 1 + a, ?_, by omega⟩
      exact List.mem_cons_of_mem _ (List.mem_map_of_mem ha)

theorem decodeLines_take {events : List Event} (h : ∀ e ∈ events, e.Recordable) {m : Nat}
    (hm : m ≤ (trace events).length) (n : Nat) :
    (BetweenRecords events m →
      decodeLines depth n (lines ((trace events).take m)) = .ok (events.take (wholeRecords events m))) ∧
    (¬ BetweenRecords events m → ∃ r, decodeLines depth n (lines ((trace events).take m)) =
      .error (.badRecord (wholeRecords events m + n) r)) := by
  induction events generalizing m n with
  | nil =>
      have : m = 0 := Nat.le_zero.1 hm
      subst this
      exact ⟨fun _ => rfl, fun hb => absurd (.inl rfl) hb⟩
  | cons e es ih =>
      obtain ⟨he, hes⟩ := List.forall_mem_cons.1 h
      have hne := record_ne_nil he.toEncodable
      have htrace : trace (e :: es) = record e ++ 0x0A :: trace es := by simp [trace]
      rw [htrace] at hm ⊢
      rcases Nat.lt_trichotomy m (record e).length with hlt | rfl | hgt
      · by_cases hz : m = 0
        · subst hz
          rw [wholeRecords_of_lt hlt]
          exact ⟨fun _ => rfl, fun hb => absurd (.inl rfl) hb⟩
        refine ⟨fun hb => absurd hb (not_betweenRecords_of_lt hz hlt), fun _ => ?_⟩
        have hl : ((record e).take m).length = m := List.length_take_of_le (Nat.le_of_lt hlt)
        rw [List.take_append_of_le_length (Nat.le_of_lt hlt), wholeRecords_of_lt hlt, Nat.zero_add]
        apply decodeLines_torn he.toEncodable ⟨_, List.take_append_drop m _⟩
        · rw [← List.length_pos_iff, hl]
          exact Nat.pos_of_ne_zero hz
        · intro heq
          rw [heq] at hl
          omega
      · have hb : BetweenRecords (e :: es) (record e).length :=
          .inr ⟨_, List.mem_cons_self, .inl rfl⟩
        refine ⟨fun _ => ?_, fun hn => absurd hb hn⟩
        rw [List.take_left, wholeRecords_brace, lines_of_noLineEnd (noLineEnd_record e) hne,
          decodeLines_record he]
        rfl
      · obtain ⟨j, rfl⟩ : ∃ j, m = (record e).length + 1 + j := ⟨m - (record e).length - 1, by omega⟩
        have hj : j ≤ (trace es).length := by
          simp only [List.length_append, List.length_cons] at hm
          omega
        have htake : (record e ++ 0x0A :: trace es).take ((record e).length + 1 + j) =
            record e ++ 0x0A :: (trace es).take j := by
          rw [Nat.add_assoc, List.take_length_add_append, Nat.add_comm 1, List.take_succ_cons]
        rw [htake, lines_append (noLineEnd_record e), decodeLines_record he, betweenRecords_behind,
          wholeRecords_behind]
        obtain ⟨hok, herror⟩ := ih hes hj (n + 1)
        constructor
        · intro hb
          rw [hok hb]
          rfl
        · intro hb
          obtain ⟨r, hr⟩ := herror hb
          refine ⟨r, ?_⟩
          rw [hr, Nat.add_assoc, Nat.add_comm 1]
          rfl

theorem exists_record_eq {e : Event} (h : e.Encodable) : ∃ b, record e = b ++ [0x7D] := by
  obtain ⟨c, hc⟩ := h.exists_char
  rw [record_eq hc, recordBytes_eq, ← List.cons_append]
  exact ⟨_, rfl⟩

theorem pos_of_mem_recordEnds {events : List Event} (h : ∀ e ∈ events, e.Encodable) {b : Nat}
    (hb : b ∈ recordEnds events) : 0 < b := by
  cases events with
  | nil => cases hb
  | cons e es =>
      have hlen := length_le_of_mem_recordEnds hb
      have hpos := List.length_pos_iff.2 (record_ne_nil (h e List.mem_cons_self))
      omega

theorem marks_of_mem_recordEnds {events : List Event} (h : ∀ e ∈ events, e.Encodable) {b : Nat}
    (hb : b ∈ recordEnds events) :
    (trace events)[b - 1]? = some 0x7D ∧ (trace events)[b]? = some 0x0A := by
  induction events generalizing b with
  | nil => cases hb
  | cons e es ih =>
      obtain ⟨he, hes⟩ := List.forall_mem_cons.1 h
      obtain ⟨r, hr⟩ := exists_record_eq he
      have htrace : trace (e :: es) = r ++ 0x7D :: 0x0A :: trace es := by simp [trace, hr]
      have hlen : (record e).length = r.length + 1 := by simp [hr]
      rw [htrace]
      rcases List.mem_cons.1 hb with rfl | hb
      · rw [hlen, Nat.add_sub_cancel, List.getElem?_append_right (Nat.le_refl _),
          List.getElem?_append_right (Nat.le_add_right _ 1), Nat.sub_self, Nat.add_sub_cancel_left]
        exact ⟨rfl, rfl⟩
      · obtain ⟨a, ha, rfl⟩ := List.mem_map.1 hb
        obtain ⟨k, rfl⟩ : ∃ k, a = k + 1 := ⟨a - 1, by have := pos_of_mem_recordEnds hes ha; omega⟩
        obtain ⟨hbrace, hfeed⟩ := ih hes ha
        have hk : (record e).length + 1 + (k + 1) - 1 = r.length + (k + 2) := by omega
        have hk' : (record e).length + 1 + (k + 1) = r.length + (k + 3) := by omega
        rw [hk, hk', List.getElem?_append_right (Nat.le_add_right _ _),
          List.getElem?_append_right (Nat.le_add_right _ _), Nat.add_sub_cancel_left,
          Nat.add_sub_cancel_left]
        exact ⟨hbrace, hfeed⟩

theorem decode_take {events : List Event} (h : ∀ e ∈ events, e.Recordable) :
    ∃ data, encode events = .ok data ∧
      (∀ b ∈ recordEnds events, data[b - 1]? = some 0x7D ∧ data[b]? = some 0x0A) ∧
      ∀ m ≤ data.length,
        (BetweenRecords events m →
          decode depth (data.take m) = .ok (events.take (wholeRecords events m))) ∧
        (¬ BetweenRecords events m →
          ∃ r, decode depth (data.take m) = .error (.badRecord (wholeRecords events m + 1) r)) := by
  have he : ∀ e ∈ events, e.Encodable := fun e hm => (h e hm).toEncodable
  refine ⟨trace events, encode_eq_ok_iff.2 ⟨he, rfl⟩, fun _ => marks_of_mem_recordEnds he, ?_⟩
  intro m hm
  exact decodeLines_take h hm 1

def braceInSource : List Event :=
  [⟨2400, 1, 0, 0, 0, "a", 0, none⟩, ⟨2402, 2, 0, 0, 65, "a", 1, some "\x7dé"⟩]

theorem decode_take_inside_letter :
    (∀ e ∈ braceInSource, e.Recordable) ∧ ∃ data r, encode braceInSource = .ok data ∧
      data[213]? = some 0xC3 ∧ data[214]? = some 0xA9 ∧
      decode usualDepth (data.take 214) = .error (.badRecord 2 r) := by
  have h : ∀ e ∈ braceInSource, e.Recordable := by decide +kernel
  have hm : ¬ BetweenRecords braceInSource 214 := by decide +kernel
  have hk : wholeRecords braceInSource 214 = 1 := by decide +kernel
  obtain ⟨data, hdata, -, hcut⟩ := decode_take h
  obtain ⟨-, rfl⟩ := encode_eq_ok_iff.1 hdata
  have hlen : 214 ≤ (trace braceInSource).length := by decide +kernel
  obtain ⟨r, hr⟩ := (hcut 214 hlen).2 hm
  rw [hk] at hr
  exact ⟨h, _, r, hdata, by decide +kernel, by decide +kernel, hr⟩

end Keystroke.Trace
