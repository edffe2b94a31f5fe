import Keystroke.Text.UpperCase

namespace Keystroke

inductive LogLevel
  | notset | debug | info | warning | error | critical
deriving DecidableEq, Repr

namespace LogLevel

def all : List LogLevel := [notset, debug, info, warning, error, critical]

def number : LogLevel → Nat
  | notset => 0 | debug => 10 | info => 20 | warning => 30 | error => 40 | critical => 50

def name : LogLevel → Text
  | notset => "NOTSET" | debug => "DEBUG" | info => "INFO" | warning => "WARNING"
  | error => "ERROR" | critical => "CRITICAL"

def aliases : List (Text × LogLevel) := [("WARN", warning), ("FATAL", critical)]

def names : List (Text × LogLevel) := (all.map fun l => (l.name, l)) ++ aliases

def ofText? (t : Text) : Option LogLevel := (names.find? (·.1 == t.upper)).map (·.2)

def passes (record least : LogLevel) : Bool := least.number ≤ record.number

end LogLevel

end Keystroke
