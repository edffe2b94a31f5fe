import Keystroke.Recorder
import Keystroke.Trace.File

namespace Keystroke

/-- Events have an identity, so that a correction shows in what is recorded. -/
structure Recording (α ε : Type) where
  recorder : Recorder α ε
  event : α → Event
  files : Files

namespace Recording

variable {α ε : Type}

def events (r : Recording α ε) : List Event := r.recorder.recorded.map r.event

inductive Act (α : Type)
  | pull
  | stop
  | correct (a : α) (c : Event.Correction)
  | save (path : Path)

inductive Answer (α ε : Type)
  | pulled (p : Recorder.Pull α ε)
  | done
  | notSaved (e : Trace.SaveError)

def save (r : Recording α ε) (path : Path) : Answer α ε × Recording α ε :=
  match Trace.saveInPlace r.events path r.files with
  | .ok _ files => (.done, { r with files })
  | .error e files => (.notSaved e, { r with files })

variable [DecidableEq α]

def step (r : Recording α ε) : Act α → Answer α ε × Recording α ε
  | .pull => (.pulled r.recorder.pull.1, { r with recorder := r.recorder.pull.2 })
  | .stop => (.done, { r with recorder := r.recorder.stop })
  | .correct a c => (.done, { r with event := fun b => if b = a then (r.event a).correct c else r.event b })
  | .save path => r.save path

def run (r : Recording α ε) : List (Act α) → List (Answer α ε) × Recording α ε
  | [] => ([], r)
  | act :: acts =>
    let (answer, r) := r.step act
    let (answers, r) := run r acts
    (answer :: answers, r)

end Recording

end Keystroke
