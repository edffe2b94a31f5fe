import Keystroke.Command
import Keystroke.Event.Describe

namespace Keystroke.Command.ShowTrace

open CommandLine

structure Args where
  trace : Path := .ofText []
  settings : OptionValue Path := .byDefault
  replay : Bool := false
  speed : OptionValue Binary64 := .byDefault

def replayFlag : Flag := ⟨["--replay"], .switch⟩

def speedFlag : Flag := ⟨["--speed"], .value⟩

def grammar : Grammar where
  program := "keyhook-trace"
  usage :=
    "usage: keyhook-trace [-h] [--settings SETTINGS] [--replay] [--speed SPEED]\n" ++
      "                     trace\n"
  positional := "trace"
  many := false
  flags := [helpFlag, settingsFlag, replayFlag, speedFlag]

def help : Text :=
  grammar.usage ++
    "\nPrint the events of a recorded key event trace.\n" ++
    "\npositional arguments:\n  trace\n" ++
    "\noptions:\n  -h, --help           show this help message and exit\n" ++
    "  --settings SETTINGS\n" ++
    "  --replay             wait out the recorded gaps between events\n" ++
    "  --speed SPEED\n"

def speedValue : Option Text → Except UsageError (OptionValue Binary64)
  | none => .ok .dropped
  | some text =>
    match Argument.real? text with
    | some speed => .ok (.given speed)
    | none => .error (.badValue speedFlag.name "float" text)

def take (args : Args) : Given → Except UsageError Args
  | .positional values => .ok { args with trace := .ofText (values.head?.getD []) }
  | .option name value =>
    if name = speedFlag.name then (speedValue value).map fun speed => { args with speed }
    else .ok { args with settings := settingsValue value }
  | .switch _ => .ok { args with replay := true }
  | .help => .ok args

def line (labels : Labels) (e : Event) : Except Numeral.TooManyDigits Text :=
  return (← Numeral.written e.time) ++ "\t" ++ (← e.describe labels)

def printEvent (labels : Labels) (e : Event) (rest : Feed Effect Failure) : Feed Effect Failure :=
  match line labels e with
  | .ok line => printLine line rest
  | .error x => ⟨[], some (.describing x)⟩

def lines (labels : Labels) : List Event → Feed Effect Failure
  | [] => ⟨[], none⟩
  | e :: es => printEvent labels e (lines labels es)

def replayLines (labels : Labels) (failure : Option Replay.Error) :
    List Replay.Step → Feed Effect Failure
  | [] => ⟨[], failure.map .replay⟩
  | .wait seconds :: steps => (replayLines labels failure steps).cons (.wait seconds)
  | .event e :: steps => printEvent labels e (replayLines labels failure steps)

def logRecord (logger before : Text) (count : Nat) (after : Text) (trace : Path) : LogRecord where
  logger
  level := .debug
  message := before ++ Numeral.decimal count ++ after ++ trace.text

def replayedAt (speed : Speed) (labels : Labels) (events : List Event) : Feed Effect Failure :=
  match Replayer.make events speed with
  | .error e => ⟨[], some (.replay e)⟩
  | .ok r => replayLines labels r.steps.failure r.steps.items

def replayed (args : Args) (labels : Labels) (events : List Event) : Feed Effect Failure :=
  match args.speed with
  | .byDefault => replayedAt .normal labels events
  | .given speed => replayedAt (.real speed) labels events
  | .dropped => ⟨[], some .droppedSpeed⟩

def shown (args : Args) (labels : Labels) (level : LogLevel) (events : List Event) :
    Feed Effect Failure :=
  let count := events.length
  if args.replay then
    let record := logRecord "keyhook.recorded" "Loaded " count " key events from " args.trace
    (logged level record).foldr Feed.cons (replayed args labels events)
  else
    let record := logRecord "keyhook.scripts" [] count " events in " args.trace
    (logged level record).foldr Feed.cons (lines labels events)

/-- How deep the values of other members may lie when the events are printed at once and in a replay.
A replay runs inside an event loop, whose own calls leave the reader fewer. -/
structure Depths where
  plain : Nat
  replay : Nat
  replay_le : replay ≤ plain

/-- The event loop takes six calls. -/
def Depths.usual : Depths where
  plain := Trace.usualDepth
  replay := Trace.usualDepth - 6
  replay_le := Nat.sub_le ..

def Depths.of (depths : Depths) (replay : Bool) : Nat :=
  if replay then depths.replay else depths.plain

def runWith (depths : Depths) (read : Path → Except FileError Bytes) (args : Args) : Report :=
  match labelsAndLevel read args.settings with
  | .error f => ⟨[], levelOnceRead, .failed f⟩
  | .ok (labels, level) =>
    match Trace.load (depths.of args.replay) read args.trace with
    | .error e => ⟨[], level, .failed (.ofLoad e)⟩
    | .ok events => .ofFeed level (shown args labels level events)

def arguments (argv : List Text) : Arguments Args := .ofWords grammar take {} argv

def Args.files (args : Args) : List Path := settingsFiles args.settings ++ [args.trace]

def run (depths : Depths) (read : Path → Except FileError Bytes) (argv : List Text) : Report :=
  (arguments argv).report grammar help (runWith depths read)

end Keystroke.Command.ShowTrace
