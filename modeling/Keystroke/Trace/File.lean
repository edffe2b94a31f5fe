import Keystroke.Files
import Keystroke.Trace

namespace Keystroke.Trace

inductive SaveError
  | encoding (e : EncodeError)
  | file (e : FileError)

def save (events : List Event) (path : Path) (files : Files) : Except SaveError Files := do
  let trace ← (encode events).mapError .encoding
  (files.write path trace).mapError .file

/-- A save as its files see it: what is done before a failure stays done. -/
def saveInPlace (events : List Event) (path : Path) : EStateM SaveError Files Unit := do
  let trace ← MonadExcept.ofExcept ((encode events).mapError .encoding)
  let place ← (Files.openToWrite path).adaptExcept .file
  (Files.fill place trace).adaptExcept .file

inductive LoadError
  | file (e : FileError)
  | decoding (e : DecodeError)

def load (depth : Nat) (read : Path → Except FileError Bytes) (path : Path) :
    Except LoadError (List Event) := do
  let data ← (read path).mapError .file
  (decode depth data).mapError .decoding

end Keystroke.Trace
