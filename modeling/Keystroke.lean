import Keystroke.Binary64
import Keystroke.Binary64.Decimal
import Keystroke.Catalogue
import Keystroke.Command
import Keystroke.Command.KeyText
import Keystroke.Command.ShowTrace
import Keystroke.CommandLine
import Keystroke.Event
import Keystroke.Event.Describe
import Keystroke.Event.Kind
import Keystroke.Failure
import Keystroke.Feed
import Keystroke.Files
import Keystroke.Json.Reader
import Keystroke.Json.Token
import Keystroke.Json.Value
import Keystroke.KeyCode
import Keystroke.KeyCode.Names
import Keystroke.KeyLocation
import Keystroke.KeyName
import Keystroke.KeyTable
import Keystroke.KeyTable.Standard
import Keystroke.Labels
import Keystroke.LogLevel
import Keystroke.Main
import Keystroke.Modifier
import Keystroke.Numeral
import Keystroke.Numeral.Argument
import Keystroke.Numeral.Literal
import Keystroke.Proofs.Binary64
import Keystroke.Proofs.Command
import Keystroke.Proofs.Command.KeyText
import Keystroke.Proofs.Command.ShowTrace
import Keystroke.Proofs.Digits
import Keystroke.Proofs.Event.Faithful
import Keystroke.Proofs.Event.OneLine
import Keystroke.Proofs.Feed
import Keystroke.Proofs.Files
import Keystroke.Proofs.Graphic
import Keystroke.Proofs.Hexadecimal
import Keystroke.Proofs.Json.Literals
import Keystroke.Proofs.Json.Members
import Keystroke.Proofs.Json.Number
import Keystroke.Proofs.Json.NumberText
import Keystroke.Proofs.Json.Pairs
import Keystroke.Proofs.Json.Strings
import Keystroke.Proofs.Json.Values
import Keystroke.Proofs.KeyName
import Keystroke.Proofs.KeyName.NumberPad
import Keystroke.Proofs.KeyName.Unknown
import Keystroke.Proofs.KeyTable
import Keystroke.Proofs.KeyTable.Standard
import Keystroke.Proofs.Labels
import Keystroke.Proofs.Modifier
import Keystroke.Proofs.Modifier.Bits
import Keystroke.Proofs.Recorder
import Keystroke.Proofs.Recording
import Keystroke.Proofs.Replay.Recording
import Keystroke.Proofs.Replay.Steps
import Keystroke.Proofs.Replay.Waits
import Keystroke.Proofs.Result
import Keystroke.Proofs.Settings.Load
import Keystroke.Proofs.Settings.LogLevel
import Keystroke.Proofs.Settings.Members
import Keystroke.Proofs.Settings.RoundTrip
import Keystroke.Proofs.Settings.Strings
import Keystroke.Proofs.Settings.Text
import Keystroke.Proofs.Text
import Keystroke.Proofs.Trace.Alphabet
import Keystroke.Proofs.Trace.Cut
import Keystroke.Proofs.Trace.Faults
import Keystroke.Proofs.Trace.File
import Keystroke.Proofs.Trace.Grammar
import Keystroke.Proofs.Trace.Layout
import Keystroke.Proofs.Trace.Line
import Keystroke.Proofs.Trace.LineByLine
import Keystroke.Proofs.Trace.LineText
import Keystroke.Proofs.Trace.Lines
import Keystroke.Proofs.Trace.Member
import Keystroke.Proofs.Trace.Normal
import Keystroke.Proofs.Trace.Recordable
import Keystroke.Proofs.Trace.RoundTrip
import Keystroke.Proofs.Trace.Skip
import Keystroke.Proofs.Trace.Strings
import Keystroke.Proofs.Trace.Token
import Keystroke.Proofs.Trace.Torn
import Keystroke.Proofs.Trace.Unique
import Keystroke.Proofs.Trace.ValueText
import Keystroke.Proofs.Trace.Values
import Keystroke.Proofs.UpperCase
import Keystroke.Proofs.Utf8
import Keystroke.Recorder
import Keystroke.Recording
import Keystroke.Replay
import Keystroke.Session
import Keystroke.Settings
import Keystroke.Text
import Keystroke.Text.Blank
import Keystroke.Text.CodeUnit
import Keystroke.Text.Digit
import Keystroke.Text.Printable
import Keystroke.Text.Quoted
import Keystroke.Text.UpperCase
import Keystroke.Text.Utf8
import Keystroke.Trace
import Keystroke.Trace.File
import Keystroke.Trace.Printer
import Keystroke.Trace.Reader
import Keystroke.Trace.Record
