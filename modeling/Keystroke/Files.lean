import Keystroke.Text.Quoted

namespace Keystroke

/-- A path in normal form: its root is empty, one slash or two, and no part is empty or `.`. What `..` means
depends on the directories there are, so it stays. -/
structure Path where
  root : Text
  parts : List Text
deriving DecidableEq, Repr

namespace Path

def ofText (t : Text) : Path where
  root :=
    match t.takeWhile (· == CodePoint.ofChar '/') with
    | [] => []
    | [_, _] => "//"
    | _ => "/"
  parts := (t.splitAt '/').filter fun part => part ≠ [] ∧ part ≠ "."

def text (p : Path) : Text :=
  if p.root = [] ∧ p.parts = [] then "." else p.root ++ Text.joined "/" p.parts

/-- The operating system takes names as bytes. Of the surrogates only those from U+DC80 to U+DCFF
stand for one. -/
def hasBytes (p : Path) : Bool :=
  p.text.all fun c => !c.isSurrogate || (0xDC80 ≤ c.val && c.val ≤ 0xDCFF)

def hasNul (p : Path) : Bool := p.text.any fun c => c.val == 0

end Path

inductive FileError
  | notFound (path : Path)
  | notDirectory (path : Path)
  | isDirectory (path : Path)
  | nul
  | noBytes
deriving DecidableEq, Repr

def FileError.message : FileError → Text
  | notFound p => "[Errno 2] No such file or directory: " ++ p.text.quoted
  | notDirectory p => "[Errno 20] Not a directory: " ++ p.text.quoted
  | isDirectory p => "[Errno 21] Is a directory: " ++ p.text.quoted
  | nul => "embedded null byte"
  | noBytes => "A surrogate in a file name stands for no byte"

/-- Contents by path. In the paths `..` stands only in front, for what lies outside the
directory. -/
structure Files where
  entries : List (Path × Bytes)

namespace Files

def empty : Files := ⟨[]⟩

def find? (f : Files) (p : Path) : Option Bytes := (f.entries.find? (·.1 == p)).map (·.2)

/-- A directory is whatever lies on the way to a file. -/
def isDirectory (f : Files) (p : Path) : Bool :=
  f.entries.any fun e => e.1.root == p.root && p.parts.isPrefixOf e.1.parts && e.1 != p

def put (p : Path) (data : Bytes) : List (Path × Bytes) → List (Path × Bytes)
  | [] => [(p, data)]
  | e :: es => if e.1 = p then (p, data) :: es else e :: put p data es

def above (root : Text) (here : List Text) : List Text :=
  if root = [] ∧ here.all (· == "..") then here ++ [(".." : Text)] else here.dropLast

def walk (f : Files) (p : Path) (here : List Text) : List Text → Except FileError Path
  | [] => .error (.isDirectory p)
  | part :: rest =>
    if part = ".." then walk f p (above p.root here) rest
    else
      let there : Path := ⟨p.root, here ++ [part]⟩
      if f.isDirectory there then walk f p there.parts rest
      else if rest = [] then .ok there
      else if (f.find? there).isSome then .error (.notDirectory p)
      else .error (.notFound p)

def locate (f : Files) (p : Path) : Except FileError Path :=
  if !p.hasBytes then .error .noBytes else if p.hasNul then .error .nul else f.walk p [] p.parts

def read (f : Files) (p : Path) : Except FileError Bytes := do
  let place ← f.locate p
  match f.find? place with
  | some data => .ok data
  | none => .error (.notFound p)

def write (f : Files) (p : Path) (data : Bytes) : Except FileError Files := do
  let place ← f.locate p
  return ⟨put place data f.entries⟩

/-- Opening a file to write empties it, or makes it where there is none. -/
def openToWrite (p : Path) : EStateM FileError Files Path := fun f =>
  match f.locate p with
  | .ok place => .ok place ⟨put place [] f.entries⟩
  | .error e => .error e f

/-- What is written goes to an open file. It is taken not to fail there: no disk is full and none breaks
down. -/
def fill (place : Path) (data : Bytes) : EStateM FileError Files Unit :=
  modify fun f => ⟨put place data f.entries⟩

end Files

end Keystroke
