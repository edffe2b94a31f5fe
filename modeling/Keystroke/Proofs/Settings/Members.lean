import Keystroke.Proofs.Json.Members
import Keystroke.Proofs.Settings.Load

namespace Keystroke.Settings

open Json

theorem ofMembers_congr {o o' : List (Text × Value)}
    (hlabels : Value.member? "labels" o = Value.member? "labels" o')
    (hlevel : Value.member? "log_level" o = Value.member? "log_level" o') (path : Except Error Path) :
    ofMembers o path = ofMembers o' path := by
  rw [ofMembers_eq, ofMembers_eq, labelsIn, levelIn, hlabels, hlevel, labelsIn, levelIn]

theorem path_of_ofFile {path : Path} {data : Bytes} {s : Settings} (h : ofFile path data = .ok s) :
    s.path = path := by
  obtain ⟨t, o, -, -, h⟩ := exists_of_ofFile h
  exact (parts_of_ofMembers h).2.2

theorem path_of_load {read : Path → Except FileError Bytes} {path : Path} {s : Settings}
    (h : load read path = .ok s) : s.path = path := by
  obtain ⟨data, -, h⟩ := exists_of_bind h
  exact path_of_ofFile h

/-- Two files that hold objects give the same settings, or the same error, at one path if they have one value for
the labels and one for the level, each the value of the last member of that name, or lack it both. No other member
counts, nor does the order of members; the path is the one that was loaded from, whatever any file has for it. -/
theorem load_lastMembers {read read' : Path → Except FileError Bytes} {path : Path} {data data' : Bytes}
    {t t' : Text} {o o' : List (Text × Value)} (hdata : read path = .ok data)
    (hdata' : read' path = .ok data') (ht : Utf8.decode? data = some t) (ht' : Utf8.decode? data' = some t')
    (ho : Json.parse t = .ok (.object o)) (ho' : Json.parse t' = .ok (.object o')) :
    ∃ ms ms', writtenMembers t = .ok ms ∧ writtenMembers t' = .ok ms' ∧
      (lastMember? "labels" ms = lastMember? "labels" ms' →
        lastMember? "log_level" ms = lastMember? "log_level" ms' → load read path = load read' path) ∧
      ∀ files place s, load files place = .ok s → s.path = place := by
  obtain ⟨ms, hms, rfl⟩ := parse_eq_object_iff.1 ho
  obtain ⟨ms', hms', rfl⟩ := parse_eq_object_iff.1 ho'
  refine ⟨ms, ms', hms, hms', fun hlabels hlevel => ?_, fun _ _ _ => path_of_load⟩
  have hmember (key : Text) (h : lastMember? key ms = lastMember? key ms') :
      Value.member? key (putAll [] ms) = Value.member? key (putAll [] ms') := by
    rw [member?_putAll, member?_putAll, h]
  rw [load_of_read hdata, load_of_read hdata', ofFile_of_parse ht ho, ofFile_of_parse ht' ho']
  exact ofMembers_congr (hmember "labels" hlabels) (hmember "log_level" hlevel) _

def plainText : Text := "\x7b\"labels\":\x7b\"a\":true,\"b\":\"x\"\x7d,\"log_level\":\"debug\"\x7d"

/-- The same labels and level behind others that do not count, with an escape in a name and a path. -/
def crowdedText : Text :=
  " \x7b\"_path\":[\"s\"], \"log_level\":false, \"labels\":null, \"x\":\x7b\"labels\":\"y\"\x7d,\n" ++
    "\"log\\u005flevel\":\"debug\",\"labels\":\x7b\"a\":null,\"b\":\"\\u0078\",\"a\":true\x7d,\"_path\":\"t\"\x7d"

def plainLabels : Value := .object [("a", .bool true), ("b", .string "x")]

def fileOf (t : Text) : Path → Except FileError Bytes := fun _ => .ok (Utf8.bytes t)

theorem load_lastMembers_crowded :
    load (fileOf plainText) (.ofText "s.json") = load (fileOf crowdedText) (.ofText "s.json") ∧
    ∃ s, load (fileOf plainText) (.ofText "s.json") = .ok s ∧ s.path = .ofText "s.json" := by
  have hplain : writtenMembers plainText = .ok [("labels", plainLabels), ("log_level", .string "debug")] := by
    cbv
  have hcrowded : writtenMembers crowdedText = .ok [("_path", .array [.string "s"]), ("log_level", .bool false),
      ("labels", .null), ("x", .object [("labels", .string "y")]), ("log_level", .string "debug"),
      ("labels", plainLabels), ("_path", .string "t")] := by
    cbv
  have hdecode : Utf8.decode? (Utf8.bytes plainText) = some plainText ∧
      Utf8.decode? (Utf8.bytes crowdedText) = some crowdedText := by
    decide +kernel
  obtain ⟨ms, ms', hms, hms', hsame, hpath⟩ := @load_lastMembers (fileOf plainText) (fileOf crowdedText)
    (.ofText "s.json") _ _ _ _ _ _ rfl rfl hdecode.1 hdecode.2 (parse_eq_object_iff.2 ⟨_, hplain, rfl⟩)
    (parse_eq_object_iff.2 ⟨_, hcrowded, rfl⟩)
  cases hplain.symm.trans hms
  cases hcrowded.symm.trans hms'
  have hloads : (load (fileOf plainText) (.ofText "s.json")).toOption.isSome = true := by decide +kernel
  obtain ⟨s, hs⟩ := Option.isSome_iff_exists.1 hloads
  have hs := eq_ok_of_toOption hs
  exact ⟨hsame rfl rfl, s, hs, hpath _ _ s hs⟩

end Keystroke.Settings
