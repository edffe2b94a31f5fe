import Keystroke.Command
import Keystroke.KeyName

namespace Keystroke.Command.KeyText

open CommandLine

structure Args where
  codes : List Int := []
  settings : OptionValue Path := .byDefault

def grammar : Grammar where
  program := "keyhook-keytext"
  usage := "usage: keyhook-keytext [-h] [--settings SETTINGS] CODE [CODE ...]\n"
  positional := "CODE"
  many := true
  flags := [helpFlag, settingsFlag]

def help : Text :=
  grammar.usage ++
    "\nPrint the name and action-key flag of virtual key codes.\n" ++
    "\npositional arguments:\n  CODE\n" ++
    "\noptions:\n  -h, --help           show this help message and exit\n  --settings SETTINGS\n"

def codes : List Text → Except UsageError (List Int)
  | [] => .ok []
  | t :: ts =>
    match Argument.integer? t with
    | some code => (codes ts).map (code :: ·)
    | none => .error (.badValue "CODE" "<lambda>" t)

def take (args : Args) : Given → Except UsageError Args
  | .positional values => (codes values).map fun codes => { args with codes }
  | .option _ path => .ok { args with settings := settingsValue path }
  | .switch _ | .help => .ok args

def line (labels : Labels) (code : Int) : Text :=
  Numeral.hexColumn code ++ "\t" ++ KeyCode.text code labels ++ "\t" ++
    if KeyCode.isAction code then "action" else "-"

def lines (labels : Labels) : List Int → Feed Effect Failure
  | [] => ⟨[], none⟩
  | code :: codes => printLine (line labels code) (lines labels codes)

def runWith (read : Path → Except FileError Bytes) (args : Args) : Report :=
  match labelsAndLevel read args.settings with
  | .ok (labels, level) => .ofFeed level (lines labels args.codes)
  | .error f => ⟨[], levelOnceRead, .failed f⟩

def arguments (argv : List Text) : Arguments Args := .ofWords grammar take {} argv

def Args.files (args : Args) : List Path := settingsFiles args.settings

def run (read : Path → Except FileError Bytes) (argv : List Text) : Report :=
  (arguments argv).report grammar help (runWith read)

end Keystroke.Command.KeyText
