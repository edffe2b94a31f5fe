import Keystroke.Trace.Printer
import Keystroke.Trace.Reader

namespace Keystroke.Trace

/-- A line ends at a line feed, a carriage return, or both in this order. -/
def lines : Bytes → List Bytes
  | [] => []
  | b :: r =>
    if b = 0x0A then [] :: lines r
    else if b = 0x0D then
      match r with
      | c :: r' => if c = 0x0A then [] :: lines r' else [] :: lines (c :: r')
      | [] => [[]]
    else
      match lines r with
      | [] => [[b]]
      | line :: rest => (b :: line) :: rest

/-- Nothing but spaces, tabs, line ends, vertical tabs and form feeds. -/
def isBlankLine (line : Bytes) : Bool := line.all fun b => b == 0x20 || (0x09 ≤ b && b ≤ 0x0D)

inductive DecodeError
  | badRecord (line : Nat) (reason : Reason)
  | sourceNotUtf8
  | tooDeep

def badRecordMessage (line : Nat) (reason : Text) : Text :=
  "Bad trace record on line " ++ Numeral.decimal line ++ ": " ++ reason

def DecodeError.message : DecodeError → Text
  | badRecord line reason => badRecordMessage line reason.message
  | sourceNotUtf8 => "The source is not UTF-8"
  | tooDeep => "maximum recursion depth exceeded while deserializing an object"

def DecodeError.ofFault (line : Nat) : LineFault → DecodeError
  | .reason r => .badRecord line r
  | .sourceNotUtf8 => .sourceNotUtf8
  | .tooDeep => .tooDeep

def decodeLines (depth number : Nat) : List Bytes → Except DecodeError (List Event)
  | [] => .ok []
  | line :: rest =>
    if isBlankLine line then decodeLines depth (number + 1) rest
    else do
      let e ← (readEvent depth line).mapError (.ofFault number)
      return e :: (← decodeLines depth (number + 1) rest)

def decode (depth : Nat) (data : Bytes) : Except DecodeError (List Event) :=
  decodeLines depth 1 (lines data)

end Keystroke.Trace
