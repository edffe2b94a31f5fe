import Keystroke.Command.KeyText
import Keystroke.Proofs.Command
import Keystroke.Proofs.Hexadecimal

namespace Keystroke.Command.KeyText

open Numeral

def column (line : Text) : Text := line.takeWhile (· ≠ '\t')

theorem column_line_append (labels : Labels) (code : Int) (rest : Text) :
    column (line labels code ++ rest) = hexColumn code := by
  have htab : ∀ c ∈ (("x-0123456789abcdef" : Text)), c ≠ '\t' := by decide
  have hcolumn : ∀ c ∈ hexColumn code, decide (c ≠ CodePoint.ofChar '\t') = true := fun c hc =>
    decide_eq_true (htab c (mem_alphabet_of_mem_hexColumn hc))
  have hline (front name action : Text) : front ++ ("\t" : Text) ++ name ++ ("\t" : Text) ++ action ++ rest =
      front ++ CodePoint.ofChar '\t' :: (name ++ ("\t" : Text) ++ action ++ rest) := by
    simp only [List.append_assoc, List.append_cancel_left_eq]
    rfl
  rw [line, column, hline, List.takeWhile_append_of_pos hcolumn, List.takeWhile_cons,
    if_neg (by simp), List.append_nil]

/-- The lines of all codes are printed, or those in front of one that has no form in UTF-8. -/
theorem exists_printed_lines (labels : Labels) (codes : List Int) :
    ∃ first, first <+: codes ∧
      printed (lines labels codes).items = (first.map fun code => line labels code ++ "\n") ∧
      ((lines labels codes).failure = none ↔ first = codes) := by
  induction codes with
  | nil => exact ⟨[], List.prefix_rfl, rfl, by simp [lines]⟩
  | cons code codes ih =>
      rw [lines, printLine_eq]
      split
      · obtain ⟨first, hfirst, hprinted, hfailure⟩ := ih
        refine ⟨code :: first, (List.prefix_cons_inj code).2 hfirst, ?_, ?_⟩
        · simpa [printed, Feed.cons] using hprinted
        · simpa [Feed.cons] using hfailure
      · exact ⟨[], List.nil_prefix, rfl, by simp⟩

theorem codes_map_hexColumn (values : List Int) : codes (values.map hexColumn) = .ok values := by
  induction values with
  | nil => rfl
  | cons code values ih =>
      rw [List.map_cons, codes, integer?_hexColumn]
      dsimp only
      rw [ih]
      rfl

theorem exists_printed_runWith (read : Path → Except FileError Bytes) (args : Args) :
    ∃ first, first <+: args.codes ∧
      (printed (runWith read args).effects).map column = first.map hexColumn ∧
      ((runWith read args).ending = .done → first = args.codes) := by
  rw [runWith]
  cases labelsAndLevel read args.settings with
  | error f =>
      refine ⟨[], List.nil_prefix, rfl, fun h => ?_⟩
      cases h
  | ok p =>
      obtain ⟨first, hfirst, hprinted, hfailure⟩ := exists_printed_lines p.1 args.codes
      refine ⟨first, hfirst, ?_, fun h => hfailure.1 (ofFeed_done_iff.1 h)⟩
      dsimp only
      rw [Report.ofFeed, hprinted, List.map_map]
      exact List.map_congr_left fun code _ => column_line_append p.1 code "\n"

/-- A column of a code: its sign, the mark, zeros as far as they fill it to six places, and digits. -/
structure IsColumn (code : Int) (t : Text) : Prop where
  layout : ∃ zeros, t = sign code ++ "0x" ++ List.replicate zeros (CodePoint.ofChar '0') ++
    natural 16 code.natAbs
  width : t.length = max 6 (markedHex code).length

theorem isColumn_hexColumn (code : Int) : IsColumn code (hexColumn code) where
  layout := ⟨_, hexColumn_eq_replicate code⟩
  width := length_hexColumn code

/-- The first column of a line is the code in hexadecimal, filled to six places with the sign and the mark among
them. It is read as the code by the conversion that arguments go through, so no two codes have one column, and the
columns of what a run prints are the codes it was given, up to the first whose line cannot be printed. -/
theorem printed_columns (read : Path → Except FileError Bytes) (args : Args) :
    (∀ labels code, column (line labels code ++ "\n") = hexColumn code) ∧
    (∀ code, IsColumn code (hexColumn code) ∧ Argument.integer? (hexColumn code) = some code) ∧
    (∀ code code', hexColumn code = hexColumn code' ↔ code = code') ∧
    ∃ first, first <+: args.codes ∧
      (printed (runWith read args).effects).map column = first.map hexColumn ∧
      codes (first.map hexColumn) = .ok first ∧
      ((runWith read args).ending = .done → first = args.codes) := by
  refine ⟨fun labels code => column_line_append labels code "\n",
    fun code => ⟨isColumn_hexColumn code, integer?_hexColumn code⟩, fun _ _ => hexColumn_inj, ?_⟩
  obtain ⟨first, hfirst, hcolumns, hdone⟩ := exists_printed_runWith read args
  exact ⟨first, hfirst, hcolumns, codes_map_hexColumn first, hdone⟩

def boundaryCodes : List Int := [0, -1, 0xFFF, -0xFFF, 0xFFFF, -0x1000, 0x10000]

def boundaryColumns : List Text :=
  ["0x0000", "-0x001", "0x0fff", "-0xfff", "0xffff", "-0x1000", "0x10000"]

theorem printed_columns_boundary :
    (runWith Files.empty.read { codes := boundaryCodes }).ending = .done ∧
    (printed (runWith Files.empty.read { codes := boundaryCodes }).effects).map column = boundaryColumns ∧
    codes boundaryColumns = .ok boundaryCodes := by
  have hcolumns : boundaryCodes.map hexColumn = boundaryColumns := by decide +kernel
  have hfailure : (lines .empty boundaryCodes).failure = none :=
    Option.isNone_iff_eq_none.1 (by decide +kernel)
  have hending : (runWith Files.empty.read { codes := boundaryCodes }).ending = .done :=
    ofFeed_done_iff.2 hfailure
  obtain ⟨-, -, -, first, -, hprinted, hcodes, hdone⟩ :=
    printed_columns Files.empty.read { codes := boundaryCodes }
  rw [hdone hending, hcolumns] at hprinted hcodes
  exact ⟨hending, hprinted, hcodes⟩

end Keystroke.Command.KeyText
