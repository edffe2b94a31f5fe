import Keystroke.Json.Token
import Keystroke.Text.Utf8
import Keystroke.Trace.Record

namespace Keystroke.Trace

open Json

/-- Why a line is not read. A source that is no UTF-8 and values that lie too deep are faults of
their own, with no reason. -/
inductive LineFault
  | reason (r : Reason)
  | sourceNotUtf8
  | tooDeep

inductive Token
  | null
  | bool (b : Bool)
  | number (l : Literal)
  | string (s : Bytes)
  | array
  | object
deriving DecidableEq, Repr

/-- The bytes of a string. Surrogates have to come in pairs, both halves escaped. -/
def stringBytes? : List (Piece UInt8) → Option Bytes
  | [] => some []
  | .plain b :: ps => (stringBytes? ps).map (b :: ·)
  | .escaped c :: ps =>
    if c.isHighSurrogate then
      match ps with
      | .escaped low :: ps =>
        if low.isLowSurrogate then (stringBytes? ps).map ((ofPair c low).utf8 ++ ·) else none
      | _ => none
    else if c.isLowSurrogate then none
    else (stringBytes? ps).map (c.utf8 ++ ·)

def string? (s : Bytes) : Option (Bytes × Bytes) := do
  let (ps, r) ← pieces? s
  return (← stringBytes? ps, r)

/-- The first token of a value. Of an array or an object it is the opening bracket alone. -/
def token? : Bytes → Option (Token × Bytes)
  | [] => none
  | b :: r =>
    if CodeUnit.is b '[' then some (.array, r)
    else if CodeUnit.is b '\x7b' then some (.object, r)
    else if CodeUnit.is b '"' then (string? r).map fun (s, r) => (.string s, r)
    else if CodeUnit.is b 'n' then (CodeUnit.after? "ull".toList r).map (.null, ·)
    else if CodeUnit.is b 't' then (CodeUnit.after? "rue".toList r).map (.bool true, ·)
    else if CodeUnit.is b 'f' then (CodeUnit.after? "alse".toList r).map (.bool false, ·)
    else match number? (b :: r) with
      | some (l, r) => if isUnfinished l r then none else some (.number l, r)
      | none => none

def mark? (c : Char) (s : Bytes) : Option Bytes :=
  match skipSpace s with
  | b :: r => if CodeUnit.is b c then some r else none
  | [] => none

def key? (s : Bytes) : Option (Bytes × Bytes) := do
  let (key, r) ← string? (← mark? '"' s)
  return (key, ← mark? ':' r)

def orSyntax {α : Type} : Option α → Except LineFault α
  | some a => .ok a
  | none => .error (.reason .syntaxError)

mutual

/-- What follows a value, with spaces before it. So many arrays and objects may lie in one another
as `depth` says. -/
def skipValue : Nat → Nat → Bytes → Except LineFault Bytes
  | 0, _, _ => .error (.reason .syntaxError)
  | fuel + 1, depth, s => do
    match ← orSyntax (token? (skipSpace s)) with
    | (.array, r) =>
      if depth = 0 then .error .tooDeep
      match mark? ']' r with
      | some r => return r
      | none => skipElements fuel (depth - 1) r
    | (.object, r) =>
      if depth = 0 then .error .tooDeep
      match mark? '\x7d' r with
      | some r => return r
      | none => skipMembers fuel (depth - 1) r
    | (_, r) => return r

def skipElements : Nat → Nat → Bytes → Except LineFault Bytes
  | 0, _, _ => .error (.reason .syntaxError)
  | fuel + 1, depth, s => do
    let r ← skipValue fuel depth s
    match mark? ',' r with
    | some r => skipElements fuel depth r
    | none => orSyntax (mark? ']' r)

def skipMembers : Nat → Nat → Bytes → Except LineFault Bytes
  | 0, _, _ => .error (.reason .syntaxError)
  | fuel + 1, depth, s => do
    let (_, r) ← orSyntax (key? s)
    let r ← skipValue fuel depth r
    match mark? ',' r with
    | some r => skipMembers fuel depth r
    | none => orSyntax (mark? '\x7d' r)

end

/-- Skipping takes a bracket, a mark or a token from the bytes at least at every other call. -/
def skip (depth : Nat) (s : Bytes) : Except LineFault Bytes :=
  skipValue (2 * s.length + 2) depth s

/-- How deep the values of other members may lie in a reader that is called by itself. The record
around them is the outermost object. -/
def usualDepth : Nat := nestingLimit - 1

/-- The type that a number is reported under where no integer is expected: an integer of more than
64 bits counts as a float. -/
def numberType (place : Option Field) (l : Literal) : Reason :=
  if l.isInteger ∧ -2 ^ 63 ≤ l.integer ∧ l.integer < 2 ^ 64 then .wrongType place .int
  else match l.real with
    | .infinite _ => .numberTooLarge place
    | _ => .wrongType place .float

def unexpected (place : Option Field) : Token → Reason
  | .null => .wrongType place .null
  | .bool _ => .wrongType place .bool
  | .number l => numberType place l
  | .string _ => .wrongType place .str
  | .array => .wrongType place .array
  | .object => .wrongType place .object

/-- The most characters of an integer, its sign among them. -/
def integerLimit : Nat := 4300

def intOf (f : IntField) : Token → Except Reason Int
  | .number l =>
    if l.isInteger then
      if integerLimit < l.integerLength then .error (.integerTooLong f) else .ok l.integer
    else .error (numberType (some (.int f)) l)
  | t => .error (unexpected (some (.int f)) t)

def kindOf : Token → Except Reason Kind
  | .number l =>
    match numberType (some .kind) l with
    | .wrongType _ .int =>
      match Kind.ofCode? l.integer with
      | some k => .ok k
      | none => .error (.unknownKind l.integer)
    | r => .error r
  | t => .error (unexpected (some .kind) t)

def sourceOf : Token → Except LineFault (Option Text)
  | .null => .ok none
  | .string s =>
    match Utf8.decode? s with
    | some t => .ok (some t)
    | none => .error .sourceNotUtf8
  | t => .error (.reason (unexpected (some .source) t))

structure Draft where
  kind : Option Kind := none
  time : Option Int := none
  modifiers : Option Int := none
  rawCode : Option Int := none
  keyCode : Option Int := none
  char : Option Int := none
  location : Option Int := none
  source : Option Text := none

namespace Draft

def setInt (d : Draft) (value : Int) : IntField → Draft
  | .time => { d with time := value }
  | .modifiers => { d with modifiers := value }
  | .rawCode => { d with rawCode := value }
  | .keyCode => { d with keyCode := value }
  | .char => { d with char := value }
  | .location => { d with location := value }

def set (d : Draft) (f : Field) (t : Token) : Except LineFault Draft :=
  match f with
  | .kind => ((kindOf t).mapError .reason).map fun k => { d with kind := k }
  | .int f => ((intOf f t).mapError .reason).map fun n => d.setInt n f
  | .source => (sourceOf t).map fun s => { d with source := s }

def finish (d : Draft) : Except Reason Record := do
  let need {α : Type} (f : Field) (v : Option α) : Except Reason α :=
    match v with
    | some v => .ok v
    | none => .error (.missing f)
  return {
    kind := ← need .kind d.kind
    time := ← need (.int .time) d.time
    modifiers := ← need (.int .modifiers) d.modifiers
    rawCode := ← need (.int .rawCode) d.rawCode
    keyCode := ← need (.int .keyCode) d.keyCode
    char := ← need (.int .char) d.char
    location := ← need (.int .location) d.location
    source := d.source }

end Draft

def fieldOf? (key : Bytes) : Option Field :=
  Field.all.find? fun f => Utf8.encode? f.name == some key

def readMember (depth : Nat) (d : Draft) (s : Bytes) : Except LineFault (Draft × Bytes) := do
  let (key, r) ← orSyntax (key? s)
  match fieldOf? key with
  | none => return (d, ← skip depth r)
  | some f =>
    let (t, r) ← orSyntax (token? (skipSpace r))
    return (← d.set f t, r)

def readMembers (depth : Nat) : Nat → Draft → Bytes → Except LineFault (Draft × Bytes)
  | 0, _, _ => .error (.reason .syntaxError)
  | fuel + 1, d, s => do
    let (d, r) ← readMember depth d s
    match mark? ',' r with
    | some r => readMembers depth fuel d r
    | none => return (d, ← orSyntax (mark? '\x7d' r))

/-- The reader goes from left to right and stops at the first fault, so a value of the wrong type is
reported although the line may not even end. Missing fields are reported at the closing bracket. -/
def readRecord (depth : Nat) (line : Bytes) : Except LineFault Record := do
  match ← orSyntax (token? (skipSpace line)) with
  | (.object, r) =>
    let (d, r) ← match mark? '\x7d' r with
      | some r => pure ({}, r)
      | none => readMembers depth r.length {} r
    let record ← d.finish.mapError .reason
    if skipSpace r = [] then return record else .error (.reason .syntaxError)
  | (t, _) => .error (.reason (unexpected none t))

def readEvent (depth : Nat) (line : Bytes) : Except LineFault Event := do
  let record ← readRecord depth line
  record.toEvent.mapError .reason

end Keystroke.Trace
