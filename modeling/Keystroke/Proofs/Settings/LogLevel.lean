import Keystroke.Proofs.UpperCase
import Keystroke.Settings

namespace Keystroke

namespace LogLevel

def nameTable : List (Text × Text) :=
  [("CRITICAL", "CRITICAL"), ("FATAL", "CRITICAL"), ("ERROR", "ERROR"), ("WARN", "WARNING"),
    ("WARNING", "WARNING"), ("INFO", "INFO"), ("DEBUG", "DEBUG"), ("NOTSET", "NOTSET")]

theorem plain_of_mem_nameTable {e : Text × Text} (h : e ∈ nameTable) : Text.Plain e.1 where
  capital := by
    revert e
    decide
  unexpanded := by
    revert e
    decide +kernel

theorem exists_mem_nameTable {t : Text} (h : t ∈ names.map Prod.fst) : ∃ e ∈ nameTable, e.1 = t := by
  revert t
  decide

theorem ofText?_of_spells {e : Text × Text} (he : e ∈ nameTable) {t : Text} (h : Text.Spells e.1 t) :
    ∃ level, ofText? t = some level ∧ level.name = e.2 := by
  have hfound : ∀ e ∈ nameTable, ((names.find? (·.1 == e.1)).map (·.2)).map name = some e.2 := by decide
  rw [ofText?, (Text.upper_eq_iff (plain_of_mem_nameTable he)).2 h]
  exact Option.map_eq_some_iff.1 (hfound e he)

theorem exists_spells_of_ofText? {t : Text} {level : LogLevel} (h : ofText? t = some level) :
    ∃ e ∈ nameTable, Text.Spells e.1 t := by
  obtain ⟨n, hn, -⟩ := Option.map_eq_some_iff.1 h
  have hupper : n.1 = t.upper := by simpa using List.find?_some hn
  obtain ⟨e, he, hname⟩ := exists_mem_nameTable (List.mem_map_of_mem (List.mem_of_find?_eq_some hn))
  exact ⟨e, he, (Text.upper_eq_iff (plain_of_mem_nameTable he)).1 (hname.trans hupper).symm⟩

end LogLevel

namespace Settings

open LogLevel

theorem levelOf_name (l : LogLevel) : levelOf (.string l.name) = .ok l := by
  have h : ∀ l ∈ LogLevel.all, LogLevel.ofText? l.name = some l := by decide +kernel
  rw [levelOf, h l (by cases l <;> decide)]

theorem name_mem (l : LogLevel) :
    l.name ∈ (["CRITICAL", "ERROR", "WARNING", "INFO", "DEBUG", "NOTSET"] : List Text) := by
  cases l <;> decide

theorem levelOf_of_spells {e : Text × Text} (he : e ∈ nameTable) {t : Text} (h : Text.Spells e.1 t) :
    ∃ level, levelOf (.string t) = .ok level ∧ level.name = e.2 := by
  obtain ⟨level, hlevel, hname⟩ := ofText?_of_spells he h
  exact ⟨level, by rw [levelOf, hlevel], hname⟩

theorem levelOf_of_not_spells {t : Text} (h : ∀ e ∈ nameTable, ¬ Text.Spells e.1 t) :
    levelOf (.string t) = .error (.unknownLogLevel t) := by
  rw [levelOf]
  cases hlevel : ofText? t with
  | none => rfl
  | some level =>
      obtain ⟨e, he, hspells⟩ := exists_spells_of_ofText? hlevel
      exact absurd hspells (h e he)

/-- A level is given by each of its names, in letters of either case and with a dotless i or a long s for the letter
that it becomes; any other text is refused, and quoted. The name of the level that was found gives that level
again. -/
theorem levelOf_string (t : Text) :
    ((∃ level, levelOf (.string t) = .ok level) ↔ ∃ e ∈ nameTable, Text.Spells e.1 t) ∧
    (∀ e ∈ nameTable, Text.Spells e.1 t → ∃ level, levelOf (.string t) = .ok level ∧ level.name = e.2) ∧
    ((∀ e ∈ nameTable, ¬ Text.Spells e.1 t) → levelOf (.string t) = .error (.unknownLogLevel t)) ∧
    (Error.unknownLogLevel t).message = "Unexpected log level " ++ t ∧
    ∀ level, levelOf (.string t) = .ok level →
      level.name ∈ (["CRITICAL", "ERROR", "WARNING", "INFO", "DEBUG", "NOTSET"] : List Text) ∧
      levelOf (.string level.name) = .ok level := by
  refine ⟨⟨?_, ?_⟩, fun e he => levelOf_of_spells he, levelOf_of_not_spells, rfl,
    fun level _ => ⟨name_mem level, levelOf_name level⟩⟩
  · rintro ⟨level, hlevel⟩
    -- A text that spells no name is refused.
    refine Classical.byContradiction fun hnot => ?_
    rw [levelOf_of_not_spells fun e he hspells => hnot ⟨e, he, hspells⟩] at hlevel
    cases hlevel
  · rintro ⟨e, he, hspells⟩
    obtain ⟨level, hlevel, -⟩ := levelOf_of_spells he hspells
    exact ⟨level, hlevel⟩

/-- A dotless i and a long s stand for letters; the sharp s becomes two letters, of which one is too many. -/
theorem levelOf_string_odd :
    (∃ level, levelOf (.string "warnıNg") = .ok level ∧ level.name = "WARNING") ∧
    (∃ level, levelOf (.string "notſet") = .ok level ∧ level.name = "NOTSET") ∧
    levelOf (.string "notßet") = .error (.unknownLogLevel "notßet") := by
  refine ⟨?_, ?_, ?_⟩
  · exact (levelOf_string "warnıNg").2.1 ("WARNING", "WARNING") (by decide) (by decide)
  · exact (levelOf_string "notſet").2.1 ("NOTSET", "NOTSET") (by decide) (by decide)
  · exact (levelOf_string "notßet").2.2.1 (by decide)

end Settings

end Keystroke
