import Keystroke.Catalogue
import Keystroke.KeyCode

namespace Keystroke

/-- The label of a key, the identifier under which the label can be overridden, and whether the key
is an action key. Letters and digits have no identifier. -/
structure KeyInfo where
  code : Int
  labelId : Option Text
  label : Text
  action : Bool := false
deriving DecidableEq, Repr

structure KeyTable where
  entries : List KeyInfo
  distinct : (entries.map KeyInfo.code).Nodup

namespace KeyTable

def codes (t : KeyTable) : List Int := t.entries.map KeyInfo.code

def find? (t : KeyTable) (code : Int) : Option KeyInfo := t.entries.find? (·.code == code)

def size (t : KeyTable) : Nat := t.entries.length

def between (t : KeyTable) (first last : Int) : List KeyInfo :=
  (t.entries.filter fun k => first ≤ k.code && k.code < last).mergeSort fun a b => a.code ≤ b.code

def insert? (t : KeyTable) (info : KeyInfo) : Option KeyTable :=
  if h : info.code ∈ t.codes then none
  else some ⟨t.entries ++ [info], by
    simpa [List.nodup_append, t.distinct] using fun k hk e =>
      h (List.mem_map.2 ⟨k, hk, e⟩)⟩

def numpadId : Text := "numpad"
def numpadLabel : Text := "NumPad"
def unknownId : Text := "unknown"
def unknownLabel : Text := "Unknown"

def character (code : Int) : Text := (CodePoint.ofNat? code.toNat).toList

def builtinEntries : List KeyInfo :=
  ((KeyCode.letters.toList ++ KeyCode.digits.toList).map fun code =>
    { code, labelId := none, label := character code }) ++
  KeyCode.numpadDigits.toList.map fun code =>
    { code, labelId := some numpadId,
      label := numpadLabel ++ " " ++ character (code - KeyCode.numpadOffset) }

def builtin : KeyTable := ⟨builtinEntries, by decide⟩

structure Row where
  key : Catalogue.Reference
  labelId : Text
  label : Text
  action : Bool

def Row.info (row : Row) : KeyInfo := ⟨row.key.value, some row.labelId, row.label, row.action⟩

structure DuplicateRow where
  key : Catalogue.Reference

def DuplicateRow.message (e : DuplicateRow) : Text :=
  Numeral.messageAround e.key.text ("duplicate key table row for " ++ ·)

def insertAll (t : KeyTable) : List Row → Except DuplicateRow KeyTable
  | [] => .ok t
  | row :: rows =>
    match t.insert? row.info with
    | some t => t.insertAll rows
    | none => .error ⟨row.key⟩

def build (rows : List Row) : Except DuplicateRow KeyTable := builtin.insertAll rows

end KeyTable

end Keystroke
