import Keystroke.Command.KeyText
import Keystroke.Command.ShowTrace

namespace Keystroke.Program

open Command

def readFile (path : Path) : IO (Except FileError Bytes) := do
  match ← (IO.FS.readBinFile path.text.asString).toBaseIO with
  | .ok data => return .ok data.toList
  | .error (.noFileOrDirectory ..) => return .error (.notFound path)
  | .error (.inappropriateType _ code _) =>
    return .error (if code = 21 then .isDirectory path else .notDirectory path)
  | .error (.invalidArgument ..) => return .error .nul
  | .error e => throw e

def readFiles (paths : List Path) : IO (Path → Except FileError Bytes) := do
  let found ← paths.mapM fun path => return (path, ← readFile path)
  return fun path => ((found.find? (·.1 == path)).map (·.2)).getD (.error (.notFound path))

def milliseconds (seconds : Binary64) : UInt32 :=
  (Float.ofBits seconds.toBits * 1000).toUInt32

def perform : Effect → IO Unit
  | .print text => IO.print text.asString
  | .wait seconds => do
    (← IO.getStdout).flush
    IO.sleep (milliseconds seconds)
  | .log r =>
    IO.eprintln (Text.joined ":" [r.level.name, r.logger, r.message] : Text).asString

def conclude : Ending → IO UInt32
  | .done | .helped => return 0
  | .refused complaint => do
    IO.eprint complaint.asString
    return 2
  | .failed f => do
    IO.eprintln f.message.asString
    return 1

def runCommand {α : Type} (arguments : List Text → Arguments α) (files : α → List Path)
    (run : (Path → Except FileError Bytes) → List Text → Report) (argv : List Text) :
    IO UInt32 := do
  let read ← readFiles <| match arguments argv with
    | .given args => files args
    | .help | .wrong _ => []
  let report := run read argv
  report.effects.forM perform
  conclude report.ending

def run : List String → IO UInt32
  | "keytext" :: argv =>
    runCommand KeyText.arguments KeyText.Args.files KeyText.run (argv.map Text.ofString)
  | "trace" :: argv =>
    runCommand ShowTrace.arguments ShowTrace.Args.files (ShowTrace.run .usual) (argv.map Text.ofString)
  | _ => do
    IO.eprintln "usage: keystroke keytext|trace ..."
    return 2

end Keystroke.Program

def main (words : List String) : IO UInt32 := Keystroke.Program.run words
