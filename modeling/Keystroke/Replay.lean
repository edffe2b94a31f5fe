import Keystroke.Binary64.Decimal
import Keystroke.Event
import Keystroke.Feed

namespace Keystroke

/-- How much faster than recorded a replay runs: an integer or a real number. -/
inductive Speed
  | whole (n : Int)
  | real (x : Binary64)
deriving DecidableEq, Repr

namespace Speed

def normal : Speed := .real .one

def nonpositive : Speed → Bool
  | whole n => n ≤ 0
  | real x => x.nonpositive

def text : Speed → Except Numeral.TooManyDigits Text
  | whole n => Numeral.written n
  | real x => .ok x.text

end Speed

namespace Replay

inductive Error
  | badSpeed (speed : Speed)
  | gapTooLarge
  | speedTooLarge
  | waitIsNaN
deriving DecidableEq, Repr

def Error.message : Error → Text
  | badSpeed s => Numeral.messageAround s.text ("Replay speed must be positive, not " ++ ·)
  | gapTooLarge => "integer division result too large for a float"
  | speedTooLarge => "int too large to convert to float"
  | waitIsNaN => "deadline must not be NaN"

/-- The seconds to wait for a gap of milliseconds: the gap in seconds is rounded before it is
divided by the speed. -/
def wait (speed : Speed) (gap : Nat) : Except Error Binary64 :=
  match Binary64.ofQuotient? false gap 1000 with
  | none => .error .gapTooLarge
  | some seconds =>
    match speed with
    | .real x => .ok (seconds / x)
    | .whole n =>
      match Binary64.ofInt? n with
      | some x => .ok (seconds / x)
      | none => .error .speedTooLarge

inductive Step
  | wait (seconds : Binary64)
  | event (e : Event)
deriving DecidableEq, Repr

def Step.isEvent : Step → Bool
  | wait _ => false
  | event _ => true

/-- The steps for events that follow one of the given time. A wait comes before each; time that
goes backwards counts as no gap. -/
def stepsAfter (speed : Speed) (time : Int) : List Event → Feed Step Error
  | [] => ⟨[], none⟩
  | e :: es =>
    match wait speed (e.time - time).toNat with
    | .error failure => ⟨[], failure⟩
    | .ok seconds =>
      if seconds.isNaN then ⟨[.wait seconds], some .waitIsNaN⟩
      else ((stepsAfter speed e.time es).cons (.event e)).cons (.wait seconds)

def steps (speed : Speed) : List Event → Feed Step Error
  | [] => ⟨[], none⟩
  | e :: es => (stepsAfter speed e.time es).cons (.event e)

end Replay

structure Replayer where
  events : List Event
  speed : Speed
  speed_ok : speed.nonpositive = false

namespace Replayer

def make (events : List Event) (speed : Speed) : Except Replay.Error Replayer :=
  if h : speed.nonpositive = false then .ok ⟨events, speed, h⟩ else .error (.badSpeed speed)

def steps (r : Replayer) : Feed Replay.Step Replay.Error := Replay.steps r.speed r.events

def stepsUpTo (r : Replayer) (events : Option Nat) : Feed Replay.Step Replay.Error :=
  r.steps.stopAfter Replay.Step.isEvent events

end Replayer

end Keystroke
