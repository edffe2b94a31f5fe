import Keystroke.Files
import Keystroke.Json.Reader
import Keystroke.Labels
import Keystroke.LogLevel
import Keystroke.Text.Utf8

namespace Keystroke

structure Settings where
  path : Path
  labels : Labels := .empty
  logLevel : LogLevel := .info

namespace Settings

inductive Error
  | file (e : FileError)
  | notUtf8
  | json (f : Json.Fault)
  | notObject (found : Json.Value)
  | notFileObject (found : Json.Value)
  | labels (found : Json.Value)
  | logLevel (found : Json.Value)
  | unknownLogLevel (name : Text)
  | noPath
  | path (found : Json.Value)

def Error.message : Error → Text
  | file e => e.message
  | notUtf8 => "The file is not UTF-8"
  | json f => f.message
  | notObject (.array _) | notFileObject (.array _) =>
    "list indices must be integers or slices, not str"
  | notObject (.string _) => "string indices must be integers, not 'str'"
  | notObject v => "argument of type '" ++ v.typeName ++ "' is not iterable"
  | notFileObject v => "'" ++ v.typeName ++ "' object does not support item assignment"
  | labels v => "'" ++ v.typeName ++ "' object has no attribute 'items'"
  | logLevel v => "'" ++ v.typeName ++ "' object has no attribute 'upper'"
  | unknownLogLevel name => "Unexpected log level " ++ name
  | noPath => Text.quoted "_path"
  | path v => "expected str, bytes or os.PathLike object, not " ++ v.typeName

def labelsOf : Json.Value → Except Error Labels
  | .object members => .ok (.ofList (members.map fun (id, v) => (id, v.asText)))
  | v => .error (.labels v)

def levelOf : Json.Value → Except Error LogLevel
  | .string t =>
    match LogLevel.ofText? t with
    | some l => .ok l
    | none => .error (.unknownLogLevel t)
  | v => .error (.logLevel v)

def pathOf : Json.Value → Except Error Path
  | .string t => .ok (.ofText t)
  | v => .error (.path v)

/-- Labels are looked at first, then the level, then the path, whatever the order of members. Labels
and level may be missing. -/
def ofMembers (members : List (Text × Json.Value)) (path : Except Error Path) :
    Except Error Settings := do
  let labels ← match Json.Value.member? "labels" members with
    | some v => labelsOf v
    | none => .ok .empty
  let logLevel ← match Json.Value.member? "log_level" members with
    | some v => levelOf v
    | none => .ok .info
  return { path := ← path, labels, logLevel }

def ofValue : Json.Value → Except Error Settings
  | .object members =>
    ofMembers members <|
      match Json.Value.member? "_path" members with
      | some v => pathOf v
      | none => .error .noPath
  | v => .error (.notObject v)

/-- Settings from the contents of a file. Its own path counts, whatever path it holds. -/
def ofFile (path : Path) (data : Bytes) : Except Error Settings := do
  let text ← match Utf8.decode? data with
    | some t => .ok t
    | none => .error .notUtf8
  match ← (Json.parse text).mapError .json with
  | .object members => ofMembers members (.ok path)
  | v => .error (.notFileObject v)

def load (read : Path → Except FileError Bytes) (path : Path) : Except Error Settings := do
  ofFile path (← (read path).mapError .file)

def ofText (t : Text) : Except Error Settings := do
  ofValue (← (Json.parse t).mapError .json)

def sample : Settings where
  path := .ofText "test.settings.json"
  labels := .ofList [("numpad", "NumPad"), ("unknown", "Unknown")]
  logLevel := .debug

def setLabel (s : Settings) (id label : Text) : Settings :=
  { s with labels := s.labels.set id label }

def escapedUnit (n : Nat) : Text := "\\u" ++ Numeral.zeroPadded 4 (Numeral.natural 16 n)

/-- A code point in a file of printable ASCII: beyond 16 bits as two surrogates. -/
def escapedChar (c : CodePoint) : Text :=
  if c = '"' then "\\\""
  else if c = '\\' then "\\\\"
  else if c = '\n' then "\\n"
  else if c = '\r' then "\\r"
  else if c = '\t' then "\\t"
  else if c = '\x0c' then "\\f"
  else if c = '\x08' then "\\b"
  else if 0x20 ≤ c.val ∧ c.val ≤ 0x7E then [c]
  else if c.val < 0x10000 then escapedUnit c.val
  else
    let n := c.val - 0x10000
    escapedUnit (0xD800 + n / 0x400) ++ escapedUnit (0xDC00 + n % 0x400)

def jsonString (t : Text) : Text := "\"" ++ t.flatMap escapedChar ++ "\""

def labelLine (e : Text × Text) : Text := "\n    " ++ jsonString e.1 ++ ": " ++ jsonString e.2

def labelsText (l : Labels) : Text :=
  match l.entries with
  | [] => "\x7b\x7d"
  | entries => "\x7b" ++ Text.joined "," (entries.map labelLine) ++ "\n  \x7d"

/-- The text of a settings file: one label a line, two spaces a level, no line end at the end. -/
def text (s : Settings) : Text :=
  "\x7b\n  \"labels\": " ++ labelsText s.labels ++
    ",\n  \"log_level\": " ++ jsonString s.logLevel.name ++ "\n\x7d"

def fileBytes (s : Settings) : Bytes := s.text.map fun c => UInt8.ofNat c.val

def save (s : Settings) (path : Path) (files : Files) : Except FileError Files :=
  files.write path s.fileBytes

end Settings

end Keystroke
