import Keystroke.Event.Describe
import Keystroke.Failure
import Keystroke.Recorder

namespace Keystroke

/-- `store` holds every event there has been, by identity, so a correction shows wherever the event is held;
`events` lists the current ones. -/
structure Session where
  store : List Event := []
  events : List Nat := []
  trace : Bytes := []
  recorder : Recorder Nat Failure := .empty
  settings : Option Settings := none
  files : Files := .empty

namespace Session

inductive LabelChoice
  | given (labels : Labels)
  | ofSettings

/-- Events are chosen by their place in the list, from the end for a negative number; no choice
means all of them. -/
inductive Step
  | new (event : Except Event.Invalid Event)
  | correct (i : Int) (c : Event.Correction)
  | assign (i : Int) (part valueType : Text)
  | get (i : Int)
  | equal (i j : Int)
  | describe (i : Int) (labels : LabelChoice) (renderer : Event.Renderer)
  | encode (chosen : Option (List Int))
  | append (data : Bytes)
  | decode
  | record (chosen : Option (List Int)) (take failAt : Option Nat)
  | recorded
  | saveRecorded (file : Path)
  | replay (chosen : Option (List Int)) (speed : Speed) (take : Option Nat)
  | replayFile (file : Path) (speed : Speed) (take : Option Nat)
  | write (file : Path) (data : Bytes)
  | read (file : Path)
  | sampleSettings
  | loadSettings (file : Path)
  | readSettings (json : Text)
  | showSettings
  | setLabel (id label : Text)
  | saveSettings (file : Option Path)
  | keyText (code : Int) (labels : LabelChoice)
  | modifiersText (mask : Int) (labels : LabelChoice)

structure Description where
  text : Text
  plain : Text
  keyText : Text
  isAction : Bool

/-- Each way an event is shown; only `text` follows the overrides and the renderer. -/
def Description.of (e : Event) (labels : Labels) (renderer : Event.Renderer) :
    Except Numeral.TooManyDigits Description :=
  return {
    text := ← e.describeWith labels renderer.render
    plain := ← e.text
    keyText := e.keyText
    isAction := e.isActionKey }

inductive Answer
  | nothing
  | event (e : Event)
  | events (es : List Event)
  | flag (b : Bool)
  | description (d : Description)
  | bytes (b : Bytes)
  | size (n : Nat)
  | text (t : Text)
  | settings (s : Settings)
  | recording (seen recorded : Nat) (same : Bool) (failure : Option Failure)
  | replay (steps : List Replay.Step) (failure : Option Failure)
  | failed (f : Failure)

def idAt (s : Session) (i : Int) : Except Failure Nat :=
  let place := if i < 0 then i + s.events.length else i
  match if place < 0 then none else s.events[place.toNat]? with
  | some id => .ok id
  | none => .error .noSuchEvent

def eventAt (s : Session) (i : Int) : Except Failure Event := do
  match s.store[← s.idAt i]? with
  | some e => .ok e
  | none => .error .noSuchEvent

def idsAt (s : Session) : Option (List Int) → Except Failure (List Nat)
  | none => .ok s.events
  | some chosen => chosen.mapM s.idAt

def eventsOf (s : Session) (ids : List Nat) : List Event := ids.filterMap fun id => s.store[id]?

def labelsOf (s : Session) : LabelChoice → Except Failure Labels
  | .given labels => .ok labels
  | .ofSettings =>
    match s.settings with
    | some settings => .ok settings.labels
    | none => .error (.noSettings "labels")

def addEvents (s : Session) (es : List Event) : Session × List Nat :=
  ({ s with store := s.store ++ es }, (List.range es.length).map (s.store.length + ·))

def replayed (events : List Event) (speed : Speed) (take : Option Nat) : Answer :=
  match Replayer.make events speed with
  | .error e => .replay [] (some (.replay e))
  | .ok r =>
    let feed := r.stepsUpTo take
    .replay feed.items (feed.failure.map .replay)

def current (s : Session) (wanted : Text) : Except Failure Settings :=
  match s.settings with
  | some settings => .ok settings
  | none => .error (.noSettings wanted)

def adopt (s : Session) (made : Except Settings.Error Settings) :
    Except Failure (Session × Answer) :=
  (made.mapError .settings).map fun settings =>
    ({ s with settings := some settings }, .settings settings)

def record (s : Session) (chosen : Option (List Int)) (take failAt : Option Nat) :
    Except Failure (Session × Answer) := do
  let ids ← s.idsAt chosen
  let pending := Feed.failingAt failAt .sourceFailed ids
  let (got, recorder) := Recorder.consume take { pending }
  return ({ s with recorder },
    .recording got.items.length recorder.recorded.length (recorder.recorded == got.items)
      got.failure)

def attempt (s : Session) : Step → Except Failure (Session × Answer)
  | .new event => do
    let e ← event.mapError .invalidEvent
    let (s, ids) := s.addEvents [e]
    return ({ s with events := s.events ++ ids }, .event e)
  | .correct i c => do
    let id ← s.idAt i
    let e := (← s.eventAt i).correct c
    return ({ s with store := s.store.set id e }, .event e)
  | .assign i part valueType => do
    let _ ← s.idAt i
    throw (.assignment (Event.refusal part valueType))
  | .get i => return (s, .event (← s.eventAt i))
  | .equal i j => do
    let a ← s.eventAt i
    let b ← s.eventAt j
    return (s, .flag (a == b))
  | .describe i labels renderer => do
    let e ← s.eventAt i
    let d ← (Description.of e (← s.labelsOf labels) renderer).mapError .describing
    return (s, .description d)
  | .encode chosen => do
    let ids ← s.idsAt chosen
    let trace ← (Trace.encode (s.eventsOf ids)).mapError .encoding
    return ({ s with trace }, .bytes trace)
  | .append data =>
    let trace := s.trace ++ data
    .ok ({ s with trace }, .size trace.length)
  | .decode => do
    let es ← (Trace.decode Trace.usualDepth s.trace).mapError .trace
    let (s, ids) := s.addEvents es
    return ({ s with events := ids }, .events es)
  | .record chosen take failAt => s.record chosen take failAt
  | .recorded => .ok (s, .events (s.eventsOf s.recorder.recorded))
  | .saveRecorded file => do
    let files ← (Trace.save (s.eventsOf s.recorder.recorded) file s.files).mapError .ofSave
    return ({ s with files }, .bytes (← (files.read file).mapError .file))
  | .replay chosen speed take =>
    match s.idsAt chosen with
    | .ok ids => .ok (s, replayed (s.eventsOf ids) speed take)
    | .error f => .ok (s, .replay [] (some f))
  | .replayFile file speed take =>
    match Trace.load Trace.usualDepth s.files.read file with
    | .ok es => .ok (s, replayed es speed take)
    | .error e => .ok (s, .replay [] (some (.ofLoad e)))
  | .write file data => do
    let files ← (s.files.write file data).mapError .file
    return ({ s with files }, .nothing)
  | .read file => do return (s, .bytes (← (s.files.read file).mapError .file))
  | .sampleSettings => s.adopt (.ok Settings.sample)
  | .loadSettings file => s.adopt (Settings.load s.files.read file)
  | .readSettings json => s.adopt (Settings.ofText json)
  | .showSettings => do return (s, .settings (← s.current "labels"))
  | .setLabel id label => do
    let settings := (← s.current "set_label").setLabel id label
    return ({ s with settings := some settings }, .settings settings)
  | .saveSettings file => do
    let settings ← s.current "save"
    let file := file.getD settings.path
    let files ← (settings.save file s.files).mapError .file
    return ({ s with files }, .bytes (← (files.read file).mapError .file))
  | .keyText code labels => do return (s, .text (KeyCode.text code (← s.labelsOf labels)))
  | .modifiersText mask labels => do
    return (s, .text (Modifier.maskText mask (← s.labelsOf labels)))

def step (s : Session) (t : Step) : Session × Answer :=
  match s.attempt t with
  | .ok result => result
  | .error f => (s, .failed f)

def run (s : Session) : List Step → List Answer
  | [] => []
  | t :: ts =>
    let (s, answer) := s.step t
    answer :: run s ts

end Session

end Keystroke
