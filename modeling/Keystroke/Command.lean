import Keystroke.CommandLine
import Keystroke.Failure

namespace Keystroke.Command

open CommandLine

structure LogRecord where
  logger : Text
  level : LogLevel
  message : Text

inductive Effect
  | print (text : Text)
  | wait (seconds : Binary64)
  | log (r : LogRecord)

inductive Ending
  | done
  | helped
  | refused (complaint : Text)
  | failed (f : Failure)

/-- `level` is the least level of log records that pass at the end. -/
structure Report where
  effects : List Effect
  level : LogLevel
  ending : Ending

def levelAtStart : LogLevel := .warning

def levelOnceRead : LogLevel := .info

def Report.ofFeed (level : LogLevel) (f : Feed Effect Failure) : Report where
  effects := f.items
  level
  ending := match f.failure with
    | none => .done
    | some e => .failed e

def logged (level : LogLevel) (r : LogRecord) : List Effect :=
  if r.level.passes level then [.log r] else []

/-- A line is printed only if it has a form in UTF-8. -/
def printLine (line : Text) (rest : Feed Effect Failure) : Feed Effect Failure :=
  if line.any CodePoint.isSurrogate then ⟨[], some .textNotUtf8⟩
  else rest.cons (.print (line ++ "\n"))

/-- The value of an option. That it was dropped is noticed only where it is needed. -/
inductive OptionValue (α : Type)
  | byDefault
  | given (value : α)
  | dropped

def labelsAndLevel (read : Path → Except FileError Bytes) :
    OptionValue Path → Except Failure (Labels × LogLevel)
  | .byDefault => .ok (.empty, levelOnceRead)
  | .dropped => .error .droppedSettings
  | .given path => do
    let s ← (Settings.load read path).mapError .settings
    return (s.labels, s.logLevel)

def settingsFiles : OptionValue Path → List Path
  | .given path => [path]
  | .byDefault | .dropped => []

def settingsValue : Option Text → OptionValue Path
  | some text => .given (.ofText text)
  | none => .dropped

inductive Arguments (α : Type)
  | given (args : α)
  | help
  | wrong (e : UsageError)

def Arguments.collect {α : Type} (take : α → Given → Except UsageError α)
    (failure : Option UsageError) (args : α) : List Given → Arguments α
  | [] => match failure with
    | none => .given args
    | some e => .wrong e
  | .help :: _ => .help
  | g :: gs =>
    match take args g with
    | .ok args => collect take failure args gs
    | .error e => .wrong e

def Arguments.ofWords {α : Type} (grammar : Grammar) (take : α → Given → Except UsageError α)
    (start : α) (argv : List Text) : Arguments α :=
  let feed := CommandLine.parse grammar argv
  .collect take feed.failure start feed.items

/-- The help text and a command line that is refused are reported without running the command. -/
def Arguments.report {α : Type} (grammar : Grammar) (helpText : Text) (run : α → Report) :
    Arguments α → Report
  | .given args => run args
  | .help => ⟨[.print helpText], levelAtStart, .helped⟩
  | .wrong e => ⟨[], levelAtStart, .refused (grammar.complaint e)⟩

def helpFlag : Flag := ⟨["-h", "--help"], .help⟩

def settingsFlag : Flag := ⟨["--settings"], .value⟩

end Keystroke.Command
