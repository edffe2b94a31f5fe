import Keystroke.Proofs.Files
import Keystroke.Proofs.Json.Literals
import Keystroke.Proofs.Json.Values
import Keystroke.Proofs.Labels
import Keystroke.Proofs.Settings.LogLevel
import Keystroke.Proofs.Settings.Text

namespace Keystroke.Settings

open Json

def NoPairs (l : Labels) : Prop := ∀ e ∈ l.entries, e.1.NoPair ∧ e.2.NoPair

instance (l : Labels) : Decidable (NoPairs l) :=
  inferInstanceAs (Decidable (∀ e ∈ l.entries, e.1.NoPair ∧ e.2.NoPair))

theorem noPair_asText {v : Value} (h : v.Unpaired) : v.asText.NoPair := by
  cases h with
  | string h => exact h
  | null | bool | integer | real | array | object =>
      exact Text.noPair_of_noSurrogate (Value.noSurrogate_literal _)

theorem noPairs_of_labelsOf {v : Value} (hv : v.Unpaired) {l : Labels} (h : labelsOf v = .ok l) :
    NoPairs l := by
  cases hv with
  | null | bool | integer | real | string | array => cases h
  | object hk hv =>
      cases h
      intro e he
      rcases Labels.mem_setAll he with he | he
      · cases he
      · obtain ⟨⟨id, v⟩, hm, rfl⟩ := List.mem_map.1 he
        exact ⟨hk _ hm, noPair_asText (hv _ hm)⟩

theorem mem_of_member? {key : Text} {ms : List (Text × Value)} {v : Value}
    (h : Value.member? key ms = some v) : ∃ m ∈ ms, m.2 = v := by
  obtain ⟨m, hm, rfl⟩ := Option.map_eq_some_iff.1 h
  exact ⟨m, List.mem_of_find?_eq_some hm, rfl⟩

def labelsIn (ms : List (Text × Value)) : Except Error Labels :=
  match Value.member? "labels" ms with
  | some v => labelsOf v
  | none => .ok .empty

def levelIn (ms : List (Text × Value)) : Except Error LogLevel :=
  match Value.member? "log_level" ms with
  | some v => levelOf v
  | none => .ok .info

theorem ofMembers_eq (ms : List (Text × Value)) (path : Except Error Path) :
    ofMembers ms path = (labelsIn ms).bind fun labels => (levelIn ms).bind fun logLevel =>
      path.bind fun path => .ok { path, labels, logLevel } := by
  rw [ofMembers, labelsIn, levelIn]
  cases Value.member? "labels" ms <;> cases Value.member? "log_level" ms <;> rfl

theorem noPairs_of_labelsIn {ms : List (Text × Value)} (hms : Value.Unpaired (.object ms)) {l : Labels}
    (h : labelsIn ms = .ok l) : NoPairs l := by
  rw [labelsIn] at h
  split at h
  · rename_i v hv
    obtain ⟨m, hm, rfl⟩ := mem_of_member? hv
    cases hms with
    | object hk hv => exact noPairs_of_labelsOf (hv m hm) h
  · cases h
    exact nofun

theorem load_of_read {read : Path → Except FileError Bytes} {path : Path} {data : Bytes}
    (h : read path = .ok data) : load read path = ofFile path data := by
  rw [load, h]
  rfl

theorem ofFile_of_parse {data : Bytes} {t : Text} {o : List (Text × Value)}
    (ht : Utf8.decode? data = some t) (ho : Json.parse t = .ok (.object o)) (path : Path) :
    ofFile path data = ofMembers o (.ok path) := by
  simp only [ofFile, ht, ho, bind, Except.bind, Except.mapError]

theorem exists_of_ofFile {path : Path} {data : Bytes} {s : Settings} (h : ofFile path data = .ok s) :
    ∃ t o, Utf8.decode? data = some t ∧ Json.parse t = .ok (.object o) ∧
      ofMembers o (.ok path) = .ok s := by
  rw [ofFile] at h
  cases ht : Utf8.decode? data with
  | none =>
      rw [ht] at h
      cases h
  | some t =>
      rw [ht] at h
      change ((Json.parse t).mapError Error.json).bind _ = _ at h
      obtain ⟨v, hv, h⟩ := exists_of_bind h
      cases v with
      | null | bool | integer | real | string | array => cases h
      | object o => exact ⟨t, o, rfl, eq_ok_of_mapError hv, h⟩

theorem parts_of_ofMembers {o : List (Text × Value)} {path : Path} {s : Settings}
    (h : ofMembers o (.ok path) = .ok s) :
    labelsIn o = .ok s.labels ∧ levelIn o = .ok s.logLevel ∧ s.path = path := by
  rw [ofMembers_eq] at h
  obtain ⟨labels, hlabels, h⟩ := exists_of_bind h
  obtain ⟨level, hlevel, h⟩ := exists_of_bind h
  cases h
  exact ⟨hlabels, hlevel, rfl⟩

theorem noPairs_of_ofFile {path : Path} {data : Bytes} {s : Settings} (h : ofFile path data = .ok s) :
    NoPairs s.labels := by
  obtain ⟨t, o, ht, ho, h⟩ := exists_of_ofFile h
  have hvalue := unpaired_of_parse (Utf8.noSurrogate_of_decode? ht) ho
  exact noPairs_of_labelsIn hvalue (parts_of_ofMembers h).1

def IsAscii (t : Text) : Prop := ∀ c ∈ t, c.val < 0x80

instance (t : Text) : Decidable (IsAscii t) := inferInstanceAs (Decidable (∀ c ∈ t, _))

theorem isAscii_append {s t : Text} (hs : IsAscii s) (ht : IsAscii t) : IsAscii (s ++ t) :=
  List.forall_mem_append.2 ⟨hs, ht⟩

theorem isAscii_of_graphic {t : Text} (h : ∀ c ∈ t, Graphic c) : IsAscii t :=
  fun c hc => Nat.lt_trans (h c hc).2 (by decide)

theorem isAscii_text (s : Settings) : IsAscii s.text := by
  have hmark (t : Text) (ht : t ∈ (["\x7b\n  \"labels\": ", ",\n  \"log_level\": ", "\n\x7d", "\x7b\x7d",
      "\x7b", ",", "\n  \x7d", "\n    ", ": "] : List Text)) : IsAscii t := by
    revert t
    decide
  have hstring (t : Text) : IsAscii (jsonString t) := isAscii_of_graphic (graphic_of_mem_jsonString t)
  have hline (e : Text × Text) : IsAscii (labelLine e) :=
    isAscii_append (isAscii_append (isAscii_append (hmark _ (by simp)) (hstring e.1))
      (hmark _ (by simp))) (hstring e.2)
  have hlabels : IsAscii (labelsText s.labels) := by
    rw [labelsText]
    split
    · exact hmark _ (by simp)
    · refine isAscii_append (isAscii_append (hmark _ (by simp)) ?_) (hmark _ (by simp))
      refine forall_mem_joined (hmark "," (by simp)) fun t ht => ?_
      obtain ⟨e, -, rfl⟩ := List.mem_map.1 ht
      exact hline e
  exact isAscii_append (isAscii_append (isAscii_append (isAscii_append (hmark _ (by simp)) hlabels)
    (hmark _ (by simp))) (hstring _)) (hmark _ (by simp))

theorem bytes_of_isAscii {t : Text} (h : IsAscii t) :
    Utf8.bytes t = t.map fun c => UInt8.ofNat c.val := by
  induction t with
  | nil => rfl
  | cons c t ih =>
      obtain ⟨hc, ht⟩ := List.forall_mem_cons.1 h
      rw [Utf8.bytes_cons, CodePoint.utf8_ascii hc, ih ht]
      rfl

theorem decode?_fileBytes (s : Settings) : Utf8.decode? s.fileBytes = some s.text := by
  have h := isAscii_text s
  refine Utf8.decode?_eq_some_iff.2 ⟨fun c hc => ?_, (bytes_of_isAscii h).symm⟩
  exact CodePoint.isSurrogate_of_lt (Nat.lt_trans (h c hc) (by decide))

theorem toNat_lt_of_mem_fileBytes (s : Settings) : ∀ b ∈ s.fileBytes, b.toNat < 0x80 := by
  intro b hb
  obtain ⟨c, hc, rfl⟩ := List.mem_map.1 hb
  have hlt := isAscii_text s c hc
  rwa [UInt8.toNat_ofNat_of_lt' (Nat.lt_trans hlt (by decide))]

def labelsBack (l : Labels) : Labels := .ofList (l.entries.map fun e => (readBack e.1, readBack e.2))

theorem map_putMember (key : Text) (v : Value) (ms : List (Text × Value)) :
    (Value.putMember key v ms).map (fun m => (m.1, m.2.asText)) =
      Labels.put key v.asText (ms.map fun m => (m.1, m.2.asText)) := by
  induction ms with
  | nil => rfl
  | cons m ms ih =>
      rw [Value.putMember, List.map_cons, Labels.put]
      by_cases h : m.1 = key
      · rw [if_pos h, if_pos h]
        rfl
      · rw [if_neg h, if_neg h, List.map_cons, ih]

theorem map_addedMembers (done : List (Text × Value)) (es : List (Text × Text)) :
    (addedMembers done es).map (fun m => (m.1, m.2.asText)) =
      (es.map fun e => (readBack e.1, readBack e.2)).foldl (fun l e => Labels.put e.1 e.2 l)
        (done.map fun m => (m.1, m.2.asText)) := by
  induction es generalizing done with
  | nil => rfl
  | cons e es ih =>
      rw [addedMembers, List.foldl_cons, ← addedMembers, ih, map_putMember]
      rfl

theorem labelsOf_addedMembers (l : Labels) :
    labelsOf (.object (addedMembers [] l.entries)) = .ok (labelsBack l) := by
  have h : (addedMembers [] l.entries).map (fun m => (m.1, m.2.asText)) = (labelsBack l).entries := by
    rw [map_addedMembers, labelsBack, Labels.ofList_eq, Labels.entries_setAll]
    rfl
  rw [labelsOf]
  change Except.ok (Labels.ofList ((addedMembers [] l.entries).map fun m => (m.1, m.2.asText))) = _
  rw [h, Labels.ofList_entries]

theorem ofFile_fileBytes (s : Settings) (path : Path) :
    ofFile path s.fileBytes = .ok ⟨path, labelsBack s.labels, s.logLevel⟩ := by
  rw [ofFile_of_parse (decode?_fileBytes s) (parse_text s)]
  have hlabels (v w : Value) : Value.member? "labels" [("labels", v), ("log_level", w)] = some v := rfl
  have hlevel (v w : Value) : Value.member? "log_level" [("labels", v), ("log_level", w)] = some w := rfl
  simp only [ofMembers_eq, labelsIn, levelIn, hlabels, hlevel, labelsOf_addedMembers, levelOf_name,
    Except.bind]

/-- What was saved is loaded, with its texts as they are read back. -/
theorem load_of_save {s : Settings} {path : Path} {files files' : Files}
    (h : s.save path files = .ok files') :
    load files'.read path = .ok ⟨path, labelsBack s.labels, s.logLevel⟩ := by
  rw [load_of_read (Files.read_of_write h)]
  exact ofFile_fileBytes s path

theorem labelsBack_of_noPairs {l : Labels} (h : NoPairs l) : labelsBack l = l := by
  have hmap : l.entries.map (fun e => (readBack e.1, readBack e.2)) = l.entries := by
    conv => rhs; rw [← List.map_id l.entries]
    refine List.map_congr_left fun e he => ?_
    obtain ⟨hid, hlabel⟩ := h e he
    rw [readBack_of_noPair hid, readBack_of_noPair hlabel]
    rfl
  rw [labelsBack, hmap, Labels.ofList_entries]

/-- Labels survive if and only if none holds a pair in two halves. -/
theorem labelsBack_eq_iff {l : Labels} : labelsBack l = l ↔ NoPairs l := by
  refine ⟨fun h => ?_, labelsBack_of_noPairs⟩
  rw [← h]
  exact noPairs_of_ofFile (ofFile_fileBytes ⟨⟨[], []⟩, l, .info⟩ ⟨[], []⟩)

end Keystroke.Settings
