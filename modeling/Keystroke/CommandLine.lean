import Keystroke.Feed
import Keystroke.Numeral.Argument
import Keystroke.Text.Quoted

namespace Keystroke.CommandLine

inductive Action
  | help
  | switch
  | value
deriving DecidableEq, Repr

structure Flag where
  names : List Text
  action : Action
deriving DecidableEq, Repr

def Flag.name (f : Flag) : Text := f.names.getLast?.getD []

def Flag.title (f : Flag) : Text := Text.joined "/" f.names

/-- A command takes one positional argument, or one or more if `many`. Options may stand anywhere and may be
shortened as long as they stay unambiguous. -/
structure Grammar where
  program : Text
  usage : Text
  positional : Text
  many : Bool
  flags : List Flag

inductive UsageError
  | ambiguous (word : Text) (candidates : List Text)
  | noValue (flag : Flag)
  | unwantedValue (flag : Flag) (value : Text)
  | badValue (argument kind value : Text)
  | missing (argument : Text)
  | unrecognized (words : List Text)

def UsageError.message : UsageError → Text
  | ambiguous word candidates =>
    "ambiguous option: " ++ word ++ " could match " ++ Text.joined ", " candidates
  | noValue f => "argument " ++ f.title ++ ": expected one argument"
  | unwantedValue f value =>
    "argument " ++ f.title ++ ": ignored explicit argument " ++ value.quoted
  | badValue argument kind value =>
    "argument " ++ argument ++ ": invalid " ++ kind ++ " value: " ++ value.quoted
  | missing argument => "the following arguments are required: " ++ argument
  | unrecognized words => "unrecognized arguments: " ++ Text.joined " " words

/-- What a word is. A flag may have its value in the same word. A flag that nobody knows is kept
until the end. -/
inductive Role
  | plain
  | terminator
  | flag (f : Flag) (name : Text) (value : Option Text)
  | unknown

structure Word where
  text : Text
  role : Role

def Word.isOption (w : Word) : Bool :=
  match w.role with
  | .flag _ _ _ | .unknown => true
  | .plain | .terminator => false

namespace Grammar

def find? (g : Grammar) (name : Text) : Option Flag := g.flags.find? fun f => name ∈ f.names

def named (g : Grammar) : List (Text × Flag) := g.flags.flatMap fun f => f.names.map (·, f)

/-- The options that a word may be short for, each with its value. A word with one dash is short for
an option of one letter with more behind it. -/
def candidates (g : Grammar) (word : Text) : List (Text × Flag × Option Text) :=
  if word.startsWith "--" then
    let (start, value) := match word.cutAt? '=' with
      | some (start, value) => (start, some value)
      | none => (word, none)
    (g.named.filter fun n => n.1.startsWith start).map fun n => (n.1, n.2, value)
  else
    g.named.filterMap fun n =>
      if n.1 = word.take 2 then some (n.1, n.2, some (word.drop 2))
      else if n.1.startsWith word then some (n.1, n.2, none)
      else none

end Grammar

/-- A dash and digits, perhaps with a point; a line end may follow. -/
def isNegativeNumber (word : Text) : Bool :=
  match word with
  | [] => false
  | dash :: body =>
    let body := if body.getLast? = some (CodePoint.ofChar '\n') then body.dropLast else body
    let isDigit (c : CodePoint) : Bool := c.decimalDigit?.isSome
    dash == CodePoint.ofChar '-' &&
      match body.dropWhile isDigit with
      | [] => body != []
      | point :: fraction =>
        point == CodePoint.ofChar '.' && fraction != [] && fraction.all isDigit

def roleOf (g : Grammar) (word : Text) : Except UsageError Role :=
  if !word.startsWith "-" then .ok .plain
  else match g.find? word with
  | some f => .ok (.flag f word none)
  | none =>
    if word.length = 1 then .ok .plain
    else
      let assigned := do
        let (name, value) ← word.cutAt? '='
        let f ← g.find? name
        return Role.flag f name (some value)
      match assigned, g.candidates word with
      | some role, _ => .ok role
      | none, [(name, f, value)] => .ok (.flag f name value)
      | none, [] =>
        if isNegativeNumber word ∨ CodePoint.ofChar ' ' ∈ word then .ok .plain else .ok .unknown
      | none, several => .error (.ambiguous word (several.map (·.1)))

/-- Every word with its role. After the first `--` no word is an option. -/
def wordsOf (g : Grammar) : List Text → Except UsageError (List Word)
  | [] => .ok []
  | t :: ts =>
    if t = "--" then .ok (⟨t, .terminator⟩ :: ts.map (⟨·, .plain⟩))
    else do
      let role ← roleOf g t
      return ⟨t, role⟩ :: (← wordsOf g ts)

/-- What a command line gives, in order: the positional arguments as one, and the options. An option
has no value if `--` was given for it. -/
inductive Given
  | positional (values : List Text)
  | option (name : Text) (value : Option Text)
  | switch (name : Text)
  | help
deriving DecidableEq, Repr

def withoutTerminator (values : List Text) : List Text := values.erase "--"

def takePositional (g : Grammar) (ws : List Word) : List Word × List Word :=
  let isMark (w : Word) : Bool := match w.role with
    | .terminator => true
    | _ => false
  let (front, r) := ws.span isMark
  match r with
  | [] => ([], ws)
  | w :: r =>
    if w.isOption then ([], ws)
    else
      let (more, r) := if g.many then r.span (!·.isOption) else r.span isMark
      (front ++ w :: more, r)

def Flag.givenValue (f : Flag) (value : Text) : Given :=
  .option f.name (if value = "--" then none else some value)

def takeFlag (f : Flag) (ws : List Word) : Except UsageError (List Given × List Word) :=
  match f.action, ws with
  | .help, _ => .ok ([.help], ws)
  | .switch, _ => .ok ([.switch f.name], ws)
  | .value, ⟨v, .plain⟩ :: ws => .ok ([f.givenValue v], ws)
  | .value, _ => .error (.noValue f)

def takeLetters (g : Grammar) (f : Flag) (ws : List Word) :
    Text → Except UsageError (List Given × List Word)
  | [] => if f.action = .value then .ok ([f.givenValue []], ws) else .error (.unwantedValue f [])
  | c :: t =>
    if f.action = .value then .ok ([f.givenValue (c :: t)], ws)
    else match g.find? ['-', c] with
    | none => .error (.unwantedValue f (c :: t))
    | some next => do
      let (first, _) ← takeFlag f ws
      let (more, ws) ← if t = [] then takeFlag next ws else takeLetters g next ws t
      return (first ++ more, ws)

def takeOption (g : Grammar) (f : Flag) (name : Text) (value : Option Text) (ws : List Word) :
    Except UsageError (List Given × List Word) :=
  match value with
  | none => takeFlag f ws
  | some v =>
    if !name.startsWith "--" then takeLetters g f ws v
    else if f.action = .value then .ok ([f.givenValue v], ws)
    else .error (.unwantedValue f v)

def givenBy (g : Grammar) : Nat → Bool → List Text → List Word → Feed Given UsageError
  | 0, _, _, _ => ⟨[], none⟩
  | fuel + 1, awaited, extras, ws =>
    match ws with
    | ⟨t, .unknown⟩ :: ws => givenBy g fuel awaited (extras ++ [t]) ws
    | ⟨_, .flag f name value⟩ :: ws =>
      match takeOption g f name value ws with
      | .error e => ⟨[], some e⟩
      | .ok (gs, ws) =>
        if .help ∈ gs then ⟨[.help], none⟩
        else gs.foldr Feed.cons (givenBy g fuel awaited extras ws)
    | ws =>
      match if awaited then takePositional g ws else ([], ws) with
      | (taken@(_ :: _), rest) =>
        (givenBy g fuel false extras rest).cons
          (.positional (withoutTerminator (taken.map (·.text))))
      | ([], ws) =>
        let (skipped, rest) := ws.span (!·.isOption)
        let extras := extras ++ skipped.map (·.text)
        if rest = [] then
          ⟨[], if awaited then some (.missing g.positional)
            else if extras = [] then none else some (.unrecognized extras)⟩
        else givenBy g fuel awaited extras rest

def parse (g : Grammar) (argv : List Text) : Feed Given UsageError :=
  match wordsOf g argv with
  | .error e => ⟨[], some e⟩
  | .ok ws => givenBy g (ws.length + 1) true [] ws

def Grammar.complaint (g : Grammar) (e : UsageError) : Text :=
  g.usage ++ g.program ++ ": error: " ++ e.message ++ "\n"

end Keystroke.CommandLine
