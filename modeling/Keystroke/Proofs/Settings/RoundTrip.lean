import Keystroke.Proofs.Settings.Load

namespace Keystroke.Settings

open Json

def setLabels (s : Settings) (calls : List (Text × Text)) : Settings :=
  calls.foldl (fun s e => s.setLabel e.1 e.2) s

theorem setLabels_eq (s : Settings) (calls : List (Text × Text)) :
    s.setLabels calls = { s with labels := s.labels.setAll calls } := by
  induction calls generalizing s with
  | nil => rfl
  | cons e calls ih => exact ih (s.setLabel e.1 e.2)

/-- Settings are saved, wherever a file can be, as ASCII and without their path, and loaded again.
Identifiers stand where they first came, with the label that was set last. The labels survive if and only if
none of them and no identifier has a high surrogate right before a low one. -/
theorem load_save (s : Settings) (calls : List (Text × Text)) {path place : Path} {files : Files}
    (h : files.locate path = .ok place) :
    ((s.setLabels calls).labels.entries.map Prod.fst =
      (s.labels.entries.map Prod.fst ++ calls.map Prod.fst).eraseDups) ∧
    (∀ id, (s.setLabels calls).labels.find? id =
      ((calls.reverse.find? (·.1 == id)).map Prod.snd).or (s.labels.find? id)) ∧
    ∃ files', (s.setLabels calls).save path files = .ok files' ∧
      (∃ data text members, files'.read path = .ok data ∧ (∀ b ∈ data, b.toNat < 0x80) ∧
        Utf8.decode? data = some text ∧ Json.parse text = .ok (.object members) ∧
        Value.member? "_path" members = none) ∧
      ∃ loaded, load files'.read path = .ok loaded ∧ loaded.path = path ∧
        loaded.logLevel = s.logLevel ∧
        (loaded.labels = (s.setLabels calls).labels ↔
          ∀ e ∈ (s.setLabels calls).labels.entries, e.1.NoPair ∧ e.2.NoPair) := by
  rw [setLabels_eq]
  obtain ⟨files', hs⟩ := Files.exists_write_of_locate h
    (fileBytes { s with labels := s.labels.setAll calls })
  exact ⟨Labels.ids_setAll _ _, Labels.find?_setAll _ _, files', hs,
    ⟨_, _, _, Files.read_of_write hs, toNat_lt_of_mem_fileBytes _, decode?_fileBytes _, parse_text _, rfl⟩,
    _, load_of_save hs, rfl, rfl, labelsBack_eq_iff⟩

def oddCalls : List (Text × Text) :=
  [("tab\t", "\"\\\x7f"), ("half", [⟨0xDE00, by decide⟩, ⟨0xD83D, by decide⟩]), ("numpad", "a"),
    ("both", "😀é"), ("numpad", "b")]

theorem load_save_halves :
    (∃ files loaded, (sample.setLabels oddCalls).save (.ofText "s.json") .empty = .ok files ∧
      load files.read (.ofText "s.json") = .ok loaded ∧
      loaded.labels = (sample.setLabels oddCalls).labels) ∧
    ∃ files loaded, (sample.setLabels [("both", [⟨0xD83D, by decide⟩, ⟨0xDE00, by decide⟩])]).save
        (.ofText "s.json") .empty = .ok files ∧
      load files.read (.ofText "s.json") = .ok loaded ∧
      loaded.labels ≠
        (sample.setLabels [("both", [⟨0xD83D, by decide⟩, ⟨0xDE00, by decide⟩])]).labels := by
  have hplace : Files.empty.locate (.ofText "s.json") = .ok (.ofText "s.json") := rfl
  constructor
  · obtain ⟨-, -, files, hs, -, loaded, hl, -, -, hiff⟩ := load_save sample oddCalls hplace
    exact ⟨files, loaded, hs, hl, hiff.2 (by decide +kernel)⟩
  · obtain ⟨-, -, files, hs, -, loaded, hl, -, -, hiff⟩ := load_save sample
      [("both", [⟨0xD83D, by decide⟩, ⟨0xDE00, by decide⟩])] hplace
    exact ⟨files, loaded, hs, hl, fun he => absurd (hiff.1 he) (by decide +kernel)⟩

/-- Whatever a file holds, what was loaded from it is saved and loaded as it is, and saving it again writes
the same bytes. -/
theorem load_normal {read : Path → Except FileError Bytes} {path : Path} {s : Settings}
    (h : load read path = .ok s) :
    s.logLevel.name ∈ (["CRITICAL", "ERROR", "WARNING", "INFO", "DEBUG", "NOTSET"] : List Text) ∧
    (∀ e ∈ s.labels.entries, e.1.NoPair ∧ e.2.NoPair) ∧
    ∀ (dest place : Path) (files : Files), files.locate dest = .ok place →
      ∃ files' files'' again data, s.save dest files = .ok files' ∧
        load files'.read dest = .ok again ∧ again.labels = s.labels ∧ again.logLevel = s.logLevel ∧
        again.save dest files' = .ok files'' ∧ files'.read dest = .ok data ∧
        files''.read dest = .ok data := by
  obtain ⟨data, -, hdata⟩ := exists_of_bind h
  have hpairs := noPairs_of_ofFile hdata
  refine ⟨name_mem _, hpairs, fun dest place files hplace => ?_⟩
  obtain ⟨files', hs⟩ := Files.exists_write_of_locate hplace s.fileBytes
  have hload := load_of_save hs
  rw [labelsBack_of_noPairs hpairs] at hload
  obtain ⟨place', hplace', -⟩ := Files.locate_of_write hs
  obtain ⟨files'', hagain⟩ := Files.exists_write_of_locate hplace' s.fileBytes
  exact ⟨files', files'', _, s.fileBytes, hs, hload, rfl, rfl, hagain, Files.read_of_write hs,
    Files.read_of_write hagain⟩

/-- Values of every type as labels, an identifier that comes twice, and a level by its second name. -/
def oddFile : Bytes :=
  Utf8.bytes ("\x7b\"log_level\" : \"fatal\", \"labels\":\x7b\"a\":NaN," ++
    "\"b\":[1,\"\\ud83d\",null,\x7b\"k\":true\x7d]," ++
    "\"a\":\"\\uD83D\\uDE00\",\"c\":-0\x7d,\"x\":1e5\x7d")

def oddLabels : List (Text × Text) :=
  [("a", "😀"), ("b", "[1, '\\ud83d', None, \x7b'k': True\x7d]"), ("c", "0")]

theorem load_normal_oddFile :
    ∃ s files again, load (fun _ => .ok oddFile) (.ofText "s.json") = .ok s ∧
      s.labels.entries = oddLabels ∧ s.logLevel = .critical ∧ s.save (.ofText "s.json") .empty = .ok files ∧
      load files.read (.ofText "s.json") = .ok again ∧ again.labels = s.labels := by
  have hload : (load (fun _ => .ok oddFile) (.ofText "s.json")).toOption.map
      (fun s => (s.labels.entries, s.logLevel)) = some (oddLabels, .critical) := by
    decide +kernel
  obtain ⟨s, hs, hparts⟩ := Option.map_eq_some_iff.1 hload
  have hs := eq_ok_of_toOption hs
  obtain ⟨hentries, hlevel⟩ := Prod.mk.inj hparts
  have hplace : Files.empty.locate (.ofText "s.json") = .ok (.ofText "s.json") := rfl
  obtain ⟨-, -, hnormal⟩ := load_normal hs
  obtain ⟨files, -, again, -, hsave, hagain, hlabels, -⟩ := hnormal _ _ _ hplace
  exact ⟨s, files, again, hs, hentries, hlevel, hsave, hagain, hlabels⟩

end Keystroke.Settings
