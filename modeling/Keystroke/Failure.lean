import Keystroke.Replay
import Keystroke.Settings
import Keystroke.Trace.File

namespace Keystroke

inductive Failure
  | invalidEvent (e : Event.Invalid)
  | assignment (e : Event.AssignError)
  | trace (e : Trace.DecodeError)
  | encoding (e : Trace.EncodeError)
  | describing (e : Numeral.TooManyDigits)
  | replay (e : Replay.Error)
  | settings (e : Settings.Error)
  | file (e : FileError)
  | sourceFailed
  | noSuchEvent
  | noSettings (wanted : Text)
  | droppedSettings
  | droppedSpeed
  | textNotUtf8

namespace Failure

def message : Failure → Text
  | invalidEvent e => e.message
  | assignment e => e.message
  | trace e => e.message
  | encoding e => e.message
  | describing e => e.message
  | replay e => e.message
  | settings e => e.message
  | file e => e.message
  | sourceFailed => "source failed"
  | noSuchEvent => "list index out of range"
  | noSettings wanted => "'NoneType' object has no attribute '" ++ wanted ++ "'"
  | droppedSettings => "'list' object has no attribute 'open'"
  | droppedSpeed => "'<=' not supported between instances of 'list' and 'int'"
  | textNotUtf8 => "A surrogate has no form in UTF-8"

def ofSave : Trace.SaveError → Failure
  | .encoding e => .encoding e
  | .file e => .file e

def ofLoad : Trace.LoadError → Failure
  | .file e => .file e
  | .decoding e => .trace e

end Failure

end Keystroke
