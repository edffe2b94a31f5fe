import Keystroke.KeyTable
import Keystroke.Proofs.Digits

namespace Keystroke

namespace CodeRange

theorem contains_iff {r : CodeRange} {code : Int} :
    r.contains code = true ↔ r.first ≤ code ∧ code < r.stop := by
  rw [contains, Bool.and_eq_true, decide_eq_true_eq, decide_eq_true_eq]

theorem mem_toList {r : CodeRange} {code : Int} : code ∈ r.toList ↔ r.contains code = true := by
  rw [toList, List.mem_map, contains_iff]
  constructor
  · rintro ⟨n, hn, rfl⟩
    have := List.mem_range.1 hn
    simp only [size] at this
    omega
  · rintro ⟨hfirst, hstop⟩
    refine ⟨(code - r.first).toNat, List.mem_range.2 ?_, ?_⟩
    · simp only [size]
      omega
    · omega

end CodeRange

theorem KeyCode.contains_sub_offset {code : Int} (h : numpadDigits.contains code = true) :
    digits.contains (code - numpadOffset) = true := by
  simp only [numpadDigits, digits, numpadOffset, CodeRange.contains_iff] at h ⊢
  omega

namespace KeyTable

theorem find?_eq_some_iff {t : KeyTable} {code : Int} {info : KeyInfo} :
    t.find? code = some info ↔ info ∈ t.entries ∧ info.code = code := by
  obtain ⟨entries, distinct⟩ := t
  simp only [find?]
  induction entries with
  | nil => simp
  | cons e es ih =>
      obtain ⟨he, hes⟩ := List.nodup_cons.1 distinct
      by_cases hc : e.code = code
      · rw [List.find?_cons_of_pos (by simpa using hc), Option.some.injEq]
        constructor
        · rintro rfl
          exact ⟨List.mem_cons_self, hc⟩
        · rintro ⟨hm, hi⟩
          rcases List.mem_cons.1 hm with rfl | hm
          · rfl
          · exact absurd (List.mem_map.2 ⟨info, hm, hi.trans hc.symm⟩) he
      · rw [List.find?_cons_of_neg (by simpa using hc), ih hes]
        constructor
        · exact fun h => ⟨List.mem_cons_of_mem e h.1, h.2⟩
        · rintro ⟨hm, hi⟩
          rcases List.mem_cons.1 hm with rfl | hm
          · exact absurd hi hc
          · exact ⟨hm, hi⟩

theorem find?_eq_none_iff {t : KeyTable} {code : Int} : t.find? code = none ↔ code ∉ t.codes := by
  rw [find?, List.find?_eq_none, codes, List.mem_map]
  constructor
  · rintro h ⟨info, hm, hc⟩
    exact h info hm (beq_iff_eq.2 hc)
  · exact fun h info hm hc => h ⟨info, hm, beq_iff_eq.1 hc⟩

theorem insert?_of_mem {t : KeyTable} {info : KeyInfo} (h : info.code ∈ t.codes) :
    t.insert? info = none := dif_pos h

theorem insert?_of_notMem {t : KeyTable} {info : KeyInfo} (h : info.code ∉ t.codes) :
    ∃ t', t.insert? info = some t' ∧ t'.entries = t.entries ++ [info] := by
  rw [insert?, dif_neg h]
  exact ⟨_, rfl, rfl⟩

theorem codes_of_entries {t t' : KeyTable} {rows : List Row}
    (h : t'.entries = t.entries ++ rows.map Row.info) :
    t'.codes = t.codes ++ rows.map fun row => row.key.value := by
  rw [codes, h, List.map_append, List.map_map]
  rfl

theorem insertAll_of_nodup {t : KeyTable} {rows : List Row}
    (h : (t.codes ++ rows.map fun row => row.key.value).Nodup) :
    ∃ t', t.insertAll rows = .ok t' ∧ t'.entries = t.entries ++ rows.map Row.info := by
  induction rows generalizing t with
  | nil => exact ⟨t, rfl, (List.append_nil _).symm⟩
  | cons row rows ih =>
      have hrow : row.info.code ∉ t.codes := fun hm =>
        (List.nodup_append.1 h).2.2 _ hm _ List.mem_cons_self rfl
      obtain ⟨t', hinsert, hentries⟩ := insert?_of_notMem hrow
      have hcodes : t'.codes = t.codes ++ [row.key.value] := @codes_of_entries t t' [row] hentries
      have hrest : (t'.codes ++ rows.map fun row => row.key.value).Nodup := by simpa [hcodes] using h
      obtain ⟨t'', hall, hentries'⟩ := ih hrest
      refine ⟨t'', ?_, ?_⟩
      · rw [insertAll, hinsert]
        exact hall
      · rw [hentries', hentries]
        simp

theorem insertAll_append (t : KeyTable) (rows later : List Row) :
    t.insertAll (rows ++ later) = (t.insertAll rows).bind fun t => t.insertAll later := by
  induction rows generalizing t with
  | nil => rfl
  | cons row rows ih =>
      rw [List.cons_append, insertAll, insertAll]
      cases t.insert? row.info with
      | none => rfl
      | some t => exact ih t

/-- A row is refused if its code is in the table or in a row before it, and no row behind it counts. -/
theorem insertAll_of_taken {t : KeyTable} {before : List Row} {row : Row}
    (hbefore : (t.codes ++ before.map fun row => row.key.value).Nodup)
    (hrow : row.key.value ∈ t.codes ++ before.map fun row => row.key.value) (after : List Row) :
    t.insertAll (before ++ row :: after) = .error ⟨row.key⟩ := by
  obtain ⟨t', hall, hentries⟩ := insertAll_of_nodup hbefore
  have hmem : row.info.code ∈ t'.codes := codes_of_entries hentries ▸ hrow
  rw [insertAll_append, hall]
  simp only [Except.bind, insertAll, insert?_of_mem hmem]

theorem exists_taken {codes : List Int} {rows : List Row} (hcodes : codes.Nodup)
    (h : ¬ (codes ++ rows.map fun row => row.key.value).Nodup) :
    ∃ before row after, rows = before ++ row :: after ∧
      (codes ++ before.map fun row => row.key.value).Nodup ∧
      row.key.value ∈ codes ++ before.map fun row => row.key.value := by
  induction rows generalizing codes with
  | nil => exact absurd (by simpa using hcodes) h
  | cons row rows ih =>
      by_cases hrow : row.key.value ∈ codes
      · exact ⟨[], row, rows, rfl, by simpa using hcodes, by simpa using hrow⟩
      · have hnext : (codes ++ [row.key.value]).Nodup := by
          refine List.nodup_append.2 ⟨hcodes, by simp, ?_⟩
          rintro code hc _ hm rfl
          exact hrow (List.mem_singleton.1 hm ▸ hc)
        obtain ⟨before, taken, after, rfl, hbefore, hmem⟩ := ih hnext (by simpa using h)
        exact ⟨row :: before, taken, after, rfl, by simpa using hbefore, by simpa using hmem⟩

def characterInfo (code : Int) : KeyInfo := ⟨code, none, character code, false⟩

def numpadInfo (code : Int) : KeyInfo :=
  ⟨code, some numpadId, numpadLabel ++ " " ++ character (code - KeyCode.numpadOffset), false⟩

theorem builtinEntries_eq : builtinEntries =
    (KeyCode.letters.toList ++ KeyCode.digits.toList).map characterInfo ++
      KeyCode.numpadDigits.toList.map numpadInfo := rfl

theorem mem_builtinEntries {info : KeyInfo} :
    info ∈ builtinEntries ↔
      (∃ code, (KeyCode.letters.contains code = true ∨ KeyCode.digits.contains code = true) ∧
        characterInfo code = info) ∨
      ∃ code, KeyCode.numpadDigits.contains code = true ∧ numpadInfo code = info := by
  simp only [builtinEntries_eq, List.mem_append, List.mem_map, CodeRange.mem_toList]

def IsBuiltin (code : Int) : Prop :=
  (KeyCode.letters.contains code = true ∨ KeyCode.digits.contains code = true) ∨
    KeyCode.numpadDigits.contains code = true

instance (code : Int) : Decidable (IsBuiltin code) := inferInstanceAs (Decidable ((_ ∨ _) ∨ _))

theorem mem_codes_builtin {code : Int} : code ∈ builtin.codes ↔ IsBuiltin code := by
  constructor
  · intro h
    obtain ⟨info, hm, rfl⟩ := List.mem_map.1 h
    rcases mem_builtinEntries.1 hm with ⟨code, hc, rfl⟩ | ⟨code, hn, rfl⟩
    · exact .inl hc
    · exact .inr hn
  · rintro (h | h)
    · exact List.mem_map.2 ⟨_, mem_builtinEntries.2 (.inl ⟨code, h, rfl⟩), rfl⟩
    · exact List.mem_map.2 ⟨_, mem_builtinEntries.2 (.inr ⟨code, h, rfl⟩), rfl⟩

def MadeFrom (rows : List Row) (t : KeyTable) : Prop :=
  t.entries = builtinEntries ++ rows.map Row.info

theorem build_of_nodup {rows : List Row}
    (h : (builtin.codes ++ rows.map fun row => row.key.value).Nodup) :
    ∃ t, build rows = .ok t ∧ MadeFrom rows t := insertAll_of_nodup h

namespace MadeFrom

variable {rows : List Row} {t : KeyTable}

theorem nodup (h : MadeFrom rows t) :
    (builtin.codes ++ rows.map fun row => row.key.value).Nodup := by
  have hcodes : t.codes = builtin.codes ++ rows.map fun row => row.key.value := codes_of_entries h
  exact hcodes ▸ t.distinct

theorem mem_entries (h : MadeFrom rows t) {info : KeyInfo} :
    info ∈ t.entries ↔
      (∃ code, (KeyCode.letters.contains code = true ∨ KeyCode.digits.contains code = true) ∧
        characterInfo code = info) ∨
      (∃ code, KeyCode.numpadDigits.contains code = true ∧ numpadInfo code = info) ∨
      ∃ row ∈ rows, row.info = info := by
  rw [h, List.mem_append, mem_builtinEntries, List.mem_map, or_assoc]

theorem notMem_builtin (h : MadeFrom rows t) {row : Row} (hrow : row ∈ rows) :
    row.key.value ∉ builtin.codes :=
  fun hm => (List.nodup_append.1 h.nodup).2.2 _ hm _ (List.mem_map_of_mem hrow) rfl

theorem find?_character (h : MadeFrom rows t) {code : Int}
    (hc : KeyCode.letters.contains code = true ∨ KeyCode.digits.contains code = true) :
    t.find? code = some (characterInfo code) :=
  find?_eq_some_iff.2 ⟨h.mem_entries.2 (.inl ⟨code, hc, rfl⟩), rfl⟩

theorem find?_numpad (h : MadeFrom rows t) {code : Int}
    (hc : KeyCode.numpadDigits.contains code = true) : t.find? code = some (numpadInfo code) :=
  find?_eq_some_iff.2 ⟨h.mem_entries.2 (.inr (.inl ⟨code, hc, rfl⟩)), rfl⟩

theorem find?_row (h : MadeFrom rows t) {row : Row} (hrow : row ∈ rows) :
    t.find? row.key.value = some row.info :=
  find?_eq_some_iff.2 ⟨h.mem_entries.2 (.inr (.inr ⟨row, hrow, rfl⟩)), rfl⟩

theorem exists_digit (h : MadeFrom rows t) {code : Int}
    (hc : KeyCode.numpadDigits.contains code = true) :
    ∃ digit, t.find? (code - KeyCode.numpadOffset) = some digit ∧
      t.find? code = some ⟨code, some numpadId, numpadLabel ++ " " ++ digit.label, false⟩ :=
  ⟨_, h.find?_character (.inr (KeyCode.contains_sub_offset hc)), h.find?_numpad hc⟩

end MadeFrom

/-- Rows of which no two have one code, and none has that of a built-in key. -/
structure Fresh (rows : List Row) : Prop where
  distinct : (rows.map fun row => row.key.value).Nodup
  notBuiltin : ∀ row ∈ rows, ¬ IsBuiltin row.key.value

instance (rows : List Row) : Decidable (Fresh rows) :=
  decidable_of_iff ((rows.map fun row => row.key.value).Nodup ∧ ∀ row ∈ rows, ¬ IsBuiltin row.key.value)
    ⟨fun ⟨h₁, h₂⟩ => ⟨h₁, h₂⟩, fun ⟨h₁, h₂⟩ => ⟨h₁, h₂⟩⟩

theorem fresh_iff {rows : List Row} :
    Fresh rows ↔ (builtin.codes ++ rows.map fun row => row.key.value).Nodup := by
  rw [List.nodup_append]
  constructor
  · rintro ⟨hdistinct, hnew⟩
    refine ⟨builtin.distinct, hdistinct, ?_⟩
    rintro code hcode _ hm rfl
    obtain ⟨row, hrow, rfl⟩ := List.mem_map.1 hm
    exact hnew row hrow (mem_codes_builtin.1 hcode)
  · rintro ⟨-, hdistinct, hnew⟩
    exact ⟨hdistinct, fun row hrow hb =>
      hnew _ (mem_codes_builtin.2 hb) _ (List.mem_map_of_mem hrow) rfl⟩

/-- A row whose code is that of a built-in key or of a row before it. -/
def Taken (before : List Row) (row : Row) : Prop :=
  IsBuiltin row.key.value ∨ ∃ earlier ∈ before, earlier.key.value = row.key.value

theorem taken_iff {before : List Row} {row : Row} :
    Taken before row ↔ row.key.value ∈ builtin.codes ++ before.map fun row => row.key.value := by
  rw [Taken, List.mem_append, mem_codes_builtin, List.mem_map]

theorem build_cases (rows : List Row) :
    (Fresh rows ∧ ∃ t, build rows = .ok t ∧ MadeFrom rows t) ∨
      ∃ before row after, rows = before ++ row :: after ∧ Fresh before ∧ Taken before row ∧
        ¬ Fresh rows ∧ build rows = .error ⟨row.key⟩ := by
  by_cases h : Fresh rows
  · exact .inl ⟨h, build_of_nodup (fresh_iff.1 h)⟩
  · obtain ⟨before, row, after, rfl, hbefore, hrow⟩ := exists_taken builtin.distinct (mt fresh_iff.2 h)
    exact .inr ⟨before, row, after, rfl, fresh_iff.2 hbefore, taken_iff.2 hrow, h,
      insertAll_of_taken hbefore hrow after⟩

structure Holds (t : KeyTable) (rows : List Row) : Prop where
  size : t.size = 46 + rows.length
  code : ∀ code info, t.find? code = some info → info.code = code
  row : ∀ row ∈ rows, t.find? row.key.value =
    some ⟨row.key.value, some row.labelId, row.label, row.action⟩
  unchanged : ∀ code, IsBuiltin code → t.find? code = builtin.find? code
  character : ∀ code, KeyCode.letters.contains code = true ∨ KeyCode.digits.contains code = true →
    t.find? code = some ⟨code, none, character code, false⟩
  numpad : ∀ code, KeyCode.numpadDigits.contains code = true →
    ∃ digit, t.find? (code - KeyCode.numpadOffset) = some digit ∧
      t.find? code = some ⟨code, some numpadId, numpadLabel ++ " " ++ digit.label, false⟩
  only : ∀ code info, t.find? code = some info →
    IsBuiltin code ∨ ∃ row ∈ rows, row.key.value = code

theorem madeFrom_builtin : MadeFrom [] builtin := (List.append_nil _).symm

theorem MadeFrom.holds {rows : List Row} {t : KeyTable} (h : MadeFrom rows t) : Holds t rows where
  size := by
    have hbuiltin : builtinEntries.length = 46 := by decide
    rw [size, h, List.length_append, List.length_map, hbuiltin]
  code _ _ hf := (find?_eq_some_iff.1 hf).2
  row _ := h.find?_row
  unchanged code hb := by
    rcases hb with hc | hn
    · rw [h.find?_character hc, madeFrom_builtin.find?_character hc]
    · rw [h.find?_numpad hn, madeFrom_builtin.find?_numpad hn]
  character _ := h.find?_character
  numpad _ := h.exists_digit
  only code info hf := by
    obtain ⟨hm, rfl⟩ := find?_eq_some_iff.1 hf
    rcases h.mem_entries.1 hm with ⟨code, hc, rfl⟩ | ⟨code, hn, rfl⟩ | ⟨row, hrow, rfl⟩
    · exact .inl (.inl hc)
    · exact .inl (.inr hn)
    · exact .inr ⟨row, hrow, rfl⟩

end KeyTable

end Keystroke
