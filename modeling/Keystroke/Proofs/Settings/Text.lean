import Keystroke.Proofs.Json.Members
import Keystroke.Proofs.Settings.Strings

namespace Keystroke.Settings

open Json

theorem valueAt_jsonString (fuel depth : Nat) (t r : Text) :
    valueAt (fuel + 1) depth (jsonString t ++ r) = .ok (.string (readBack t), r) := by
  have hs : jsonString t ++ r =
      CodePoint.ofChar '"' :: (t.flatMap escapedChar ++ CodePoint.ofChar '"' :: r) := by
    simp [jsonString, Text.ofString]
  rw [hs, valueAt]
  simp only [if_true, stringAt_jsonString]
  rfl

theorem valueAt_emptyObject {fuel depth : Nat} {s r : Text} (h : next s = .ok (CodePoint.ofChar '\x7d', r)) :
    valueAt (fuel + 1) (depth + 1) (CodePoint.ofChar '\x7b' :: s) = .ok (.object [], r) := by
  simp only [valueAt_brace, h, Except.bind, if_true]

theorem valueAt_object {fuel depth : Nat} {s r : Text} {c : CodePoint} (h : next s = .ok (c, r))
    (hc : c ≠ CodePoint.ofChar '\x7d') :
    valueAt (fuel + 1) (depth + 1) (CodePoint.ofChar '\x7b' :: s) =
      (membersAt fuel depth [] s).map fun p => (.object p.1, p.2) := by
  simp only [valueAt_brace, h, Except.bind, hc, if_false]

def Indent (s : Text) : Prop := ∀ r, skipSpace (s ++ r) = skipSpace r

theorem membersAt_written {fuel depth : Nat} {done : List (Text × Value)} {indent key v rest r : Text}
    {w : Value} {c : CodePoint} (hi : Indent indent) (hv : valueAt fuel depth (v ++ rest) = .ok (w, rest))
    (hs : skipSpace (v ++ rest) = v ++ rest) (hn : next rest = .ok (c, r)) :
    membersAt (fuel + 1) depth done (indent ++ (jsonString key ++ (": " ++ (v ++ rest)))) =
      if c = '\x7d' then .ok (Value.putMember (readBack key) w done, r)
      else if c = ',' then membersAt fuel depth (Value.putMember (readBack key) w done) r
      else .error .syntaxError := by
  have hkey (x : Text) : jsonString key ++ x =
      CodePoint.ofChar '"' :: (key.flatMap escapedChar ++ CodePoint.ofChar '"' :: x) := by
    simp [jsonString, Text.ofString]
  have hquote : next (indent ++ (jsonString key ++ (": " ++ (v ++ rest)))) =
      .ok (CodePoint.ofChar '"',
        key.flatMap escapedChar ++ CodePoint.ofChar '"' :: (": " ++ (v ++ rest))) := by
    rw [next, hi, hkey]
    rfl
  have hcolon : next (": " ++ (v ++ rest)) = .ok (CodePoint.ofChar ':', " " ++ (v ++ rest)) := rfl
  have hspace : skipSpace ((" " : Text) ++ (v ++ rest)) = v ++ rest := hs
  rw [membersAt, hquote]
  simp only [bind, Except.bind, stringAt_jsonString, hcolon, hspace, hv, hn, ne_eq, not_true_eq_false,
    if_false, pure, Except.pure]

def addedMembers (done : List (Text × Value)) (es : List (Text × Text)) : List (Text × Value) :=
  es.foldl (fun ms e => Value.putMember (readBack e.1) (.string (readBack e.2)) ms) done

theorem skipSpace_jsonString (t r : Text) : skipSpace (jsonString t ++ r) = jsonString t ++ r := by
  simp only [jsonString, List.append_assoc]
  rfl

theorem membersAt_labelLine {fuel depth : Nat} {done : List (Text × Value)} (e : Text × Text)
    {rest r : Text} {c : CodePoint} (hn : next rest = .ok (c, r)) :
    membersAt (fuel + 2) depth done (labelLine e ++ rest) =
      if c = '\x7d' then .ok (addedMembers done [e], r)
      else if c = ',' then membersAt (fuel + 1) depth (addedMembers done [e]) r
      else .error .syntaxError := by
  have hi : Indent "\n    " := fun r => rfl
  have hv := valueAt_jsonString fuel depth e.2 rest
  rw [labelLine, List.append_assoc, List.append_assoc, List.append_assoc,
    membersAt_written hi hv (skipSpace_jsonString e.2 rest) hn]
  rfl

theorem membersAt_labelLines {fuel depth : Nat} {done : List (Text × Value)} (e : Text × Text)
    (es : List (Text × Text)) (hf : es.length + 2 ≤ fuel) (r : Text) :
    membersAt fuel depth done (Text.joined "," ((e :: es).map labelLine) ++ ("\n  \x7d" ++ r)) =
      .ok (addedMembers done (e :: es), r) := by
  induction es generalizing fuel done e with
  | nil =>
      obtain ⟨fuel, rfl⟩ : ∃ n, fuel = n + 2 := ⟨fuel - 2, by simp at hf; omega⟩
      have hn : next ("\n  \x7d" ++ r) = .ok (CodePoint.ofChar '\x7d', r) := rfl
      exact (membersAt_labelLine e hn).trans (if_pos rfl)
  | cons e' es ih =>
      obtain ⟨fuel, rfl⟩ : ∃ n, fuel = n + 2 := ⟨fuel - 2, by simp at hf; omega⟩
      have hjoined : Text.joined "," ((e :: e' :: es).map labelLine) ++ ("\n  \x7d" ++ r) =
          labelLine e ++ ("," ++ (Text.joined "," ((e' :: es).map labelLine) ++ ("\n  \x7d" ++ r))) := by
        rw [List.map_cons, List.map_cons, Text.joined, ← List.map_cons]
        · simp only [List.append_assoc]
        · simp
      have hn (x : Text) : next ("," ++ x) = .ok (CodePoint.ofChar ',', x) := rfl
      rw [hjoined, membersAt_labelLine e (hn _), if_neg (by decide), if_pos rfl,
        ih e' (by simp only [List.length_cons] at hf; omega)]
      rfl

theorem valueAt_labelsText {fuel depth : Nat} (l : Labels) (hf : l.entries.length + 2 ≤ fuel) (r : Text) :
    valueAt fuel (depth + 1) (labelsText l ++ r) = .ok (.object (addedMembers [] l.entries), r) := by
  obtain ⟨fuel, rfl⟩ : ∃ n, fuel = n + 1 := ⟨fuel - 1, by omega⟩
  rw [labelsText]
  cases h : l.entries with
  | nil => exact valueAt_emptyObject rfl
  | cons e es =>
      rw [h] at hf
      have hm : membersAt fuel depth [] (Text.joined "," ((e :: es).map labelLine) ++ ("\n  \x7d" ++ r)) =
          .ok (addedMembers [] (e :: es), r) := membersAt_labelLines e es (Nat.le_of_succ_le_succ hf) r
      have hfirst : ∃ x, next (Text.joined "," ((e :: es).map labelLine) ++ ("\n  \x7d" ++ r)) =
          .ok (CodePoint.ofChar '"', x) := by
        cases es with
        | nil => exact ⟨_, rfl⟩
        | cons e' es => exact ⟨_, rfl⟩
      obtain ⟨x, hx⟩ := hfirst
      have ho : valueAt (fuel + 1) (depth + 1) (CodePoint.ofChar '\x7b' :: _) = _ :=
        valueAt_object hx (by decide)
      rw [hm, Except.map] at ho
      simpa [Text.ofString] using ho

theorem skipSpace_labelsText (l : Labels) (r : Text) : skipSpace (labelsText l ++ r) = labelsText l ++ r := by
  rw [labelsText]
  cases l.entries with
  | nil => rfl
  | cons e es => rfl

theorem length_entries_le (l : Labels) : l.entries.length ≤ (labelsText l).length := by
  have hjoined (es : List (Text × Text)) :
      es.length ≤ (Text.joined "," (es.map labelLine)).length := by
    induction es with
    | nil => simp
    | cons e es ih =>
        have he : 1 ≤ (labelLine e).length := by simp [labelLine, Text.ofString]
        cases es with
        | nil => exact he
        | cons e' es =>
            rw [List.map_cons, List.map_cons, Text.joined, ← List.map_cons]
            · simp only [List.length_append, List.length_cons] at ih ⊢
              omega
            · simp
  rw [labelsText]
  cases h : l.entries with
  | nil => simp
  | cons e es =>
      have := hjoined (e :: es)
      simp only [List.length_append]
      omega

theorem text_eq (s : Settings) :
    s.text = "\x7b" ++ ("\n  " ++ (jsonString "labels" ++ (": " ++ (labelsText s.labels ++
      ("," ++ ("\n  " ++ (jsonString "log_level" ++ (": " ++ (jsonString s.logLevel.name ++
        "\n\x7d"))))))))) := by
  have hfirst : ("\x7b\n  \"labels\": " : Text) = "\x7b" ++ ("\n  " ++ (jsonString "labels" ++ ": ")) := by
    decide
  have hsecond : (",\n  \"log_level\": " : Text) = "," ++ ("\n  " ++ (jsonString "log_level" ++ ": ")) := by
    decide
  rw [text, hfirst, hsecond]
  simp only [List.append_assoc]

theorem noPair_name (l : LogLevel) : l.name.NoPair := by
  cases l <;> decide

/-- What a settings file is read as. -/
theorem parse_text (s : Settings) :
    Json.parse s.text = .ok (.object [("labels", .object (addedMembers [] s.labels.entries)),
      ("log_level", .string s.logLevel.name)]) := by
  have hi : Indent "\n  " := fun r => rfl
  have hkeys : readBack "labels" = "labels" ∧ readBack "log_level" = "log_level" :=
    ⟨readBack_of_noPair (by decide), readBack_of_noPair (by decide)⟩
  have hlength : s.labels.entries.length + 3 ≤ s.text.length := by
    have hlabels := length_entries_le s.labels
    have hopen : ("\x7b" : Text).length = 1 := rfl
    have hclose : ("\n\x7d" : Text).length = 2 := rfl
    rw [text_eq]
    simp only [List.length_append]
    omega
  obtain ⟨fuel, hfuel⟩ : ∃ n, 2 * s.text.length + 2 = n + 4 := ⟨2 * s.text.length - 2, by omega⟩
  have hlabels : s.labels.entries.length ≤ fuel := by omega
  have hlevel : membersAt (fuel + 2) 989 [("labels", .object (addedMembers [] s.labels.entries))]
      ("\n  " ++ (jsonString "log_level" ++ (": " ++ (jsonString s.logLevel.name ++ "\n\x7d")))) =
      .ok ([("labels", .object (addedMembers [] s.labels.entries)),
        ("log_level", .string s.logLevel.name)], []) := by
    have hend : next "\n\x7d" = .ok (CodePoint.ofChar '\x7d', []) := rfl
    rw [membersAt_written hi (valueAt_jsonString fuel 989 s.logLevel.name _)
      (skipSpace_jsonString _ _) hend, if_pos rfl, hkeys.2, readBack_of_noPair (noPair_name s.logLevel)]
    rfl
  have hmembers (x : Text) : membersAt (fuel + 3) 989 [] ("\n  " ++ (jsonString "labels" ++ (": " ++
      (labelsText s.labels ++ ("," ++ x))))) =
      membersAt (fuel + 2) 989 [("labels", .object (addedMembers [] s.labels.entries))] x := by
    have hcomma : next ("," ++ x) = .ok (CodePoint.ofChar ',', x) := rfl
    rw [membersAt_written hi (valueAt_labelsText s.labels (Nat.add_le_add_right hlabels 2) _)
      (skipSpace_labelsText _ _) hcomma, if_neg (by decide), if_pos rfl, hkeys.1]
    rfl
  have hopen (x : Text) : skipSpace (("\x7b" : Text) ++ x) = CodePoint.ofChar '\x7b' :: x := rfl
  have hquote (x : Text) : next ("\n  " ++ (jsonString "labels" ++ x)) =
      .ok (CodePoint.ofChar '"', (jsonString "labels").tail ++ x) := rfl
  have hobject (x : Text) :
      valueAt (fuel + 4) 990 (CodePoint.ofChar '\x7b' :: (("\n  " : Text) ++ (jsonString "labels" ++ x))) =
        (membersAt (fuel + 3) 989 [] ("\n  " ++ (jsonString "labels" ++ x))).map
          fun p => (.object p.1, p.2) := valueAt_object (hquote x) (by decide)
  rw [Json.parse, hfuel, text_eq, hopen, nestingLimit, hobject, hmembers, hlevel]
  rfl

end Keystroke.Settings
