import Keystroke.Event

namespace Keystroke.Trace

inductive IntField
  | time | modifiers | rawCode | keyCode | char | location
deriving DecidableEq, Repr

inductive Field
  | kind
  | int (f : IntField)
  | source
deriving DecidableEq, Repr

namespace Field

/-- In the order in which records are written. -/
def all : List Field :=
  [kind, int .time, int .modifiers, int .rawCode, int .keyCode, int .char, int .location, source]

theorem mem_all (f : Field) : f ∈ all := by
  cases f with
  | kind => decide
  | int f => cases f <;> decide
  | source => decide

def name : Field → Text
  | kind => "kind"
  | int .time => "when"
  | int .modifiers => "modifiers"
  | int .rawCode => "raw_code"
  | int .keyCode => "key_code"
  | int .char => "key_char"
  | int .location => "key_location"
  | source => "source"

end Field

/-- The character is kept as its code point, so that half of a surrogate pair survives in UTF-8. -/
structure Record where
  kind : Kind
  time : Int
  modifiers : Int
  rawCode : Int
  keyCode : Int
  char : Int
  location : Int
  source : Option Text
deriving DecidableEq, Repr

inductive JsonType
  | int | float | str | bool | null | array | object
deriving DecidableEq, Repr

def JsonType.name : JsonType → Text
  | int => "int" | float => "float" | str => "str" | bool => "bool" | null => "null"
  | array => "array" | object => "object"

/-- Why a line is no record of an event. A place is the field at fault, none for the line itself. -/
inductive Reason
  | syntaxError
  | wrongType (place : Option Field) (found : JsonType)
  | missing (field : Field)
  | unknownKind (value : Int)
  | integerTooLong (field : IntField)
  | numberTooLarge (place : Option Field)
  | noCodePoint
  | codePointTooLarge
  | invalidEvent (e : Event.Invalid)

namespace Reason

def expected : Option Field → Text
  | none => "object"
  | some .source => "str | null"
  | some _ => "int"

def at? : Option Field → Text
  | none => []
  | some f => " - at `$." ++ f.name ++ "`"

def message : Reason → Text
  | syntaxError => "The line is not JSON"
  | wrongType place found =>
    "Expected `" ++ expected place ++ "`, got `" ++ found.name ++ "`" ++ at? place
  | missing f => "Object missing required field `" ++ f.name ++ "`"
  | unknownKind value => "Invalid enum value " ++ Numeral.decimal value ++ at? (some .kind)
  | integerTooLong f => "Integer value out of range" ++ at? (some (.int f))
  | numberTooLarge place => "Number out of range" ++ at? place
  | noCodePoint => "chr() arg not in range(0x110000)"
  | codePointTooLarge => "Python int too large to convert to C int"
  | invalidEvent e => e.message

end Reason

/-- The character of a code point. Numbers outside 32 bits are told apart from other numbers that
are no code point. -/
def charOf (n : Int) : Except Reason Text :=
  if n < -2 ^ 31 ∨ 2 ^ 31 ≤ n then .error .codePointTooLarge
  else if n < 0 then .error .noCodePoint
  else match CodePoint.ofNat? n.toNat with
    | some c => .ok [c]
    | none => .error .noCodePoint

def Record.toEvent (r : Record) : Except Reason Event := do
  let char ← charOf r.char
  (Event.create r.kind.reference r.time r.modifiers r.rawCode r.keyCode char r.location
    r.source).mapError .invalidEvent

end Keystroke.Trace
