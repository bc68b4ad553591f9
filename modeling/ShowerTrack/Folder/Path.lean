/-!
# Paths

A path as it is written, and the places that its steps lead through. A step up from a
directory leaves it for the directory that holds it, so the same place has many paths.
-/

set_option autoImplicit false

namespace ShowerTrack

inductive FileFault where
  | missing
  | notDirectory
  | isDirectory
  | nameTooLong
  | zeroCharacter
  | notText
  deriving DecidableEq, Repr

def FileFault.text : FileFault → String
  | missing => "No such file or directory (os error 2)"
  | notDirectory => "Not a directory (os error 20)"
  | isDirectory => "Is a directory (os error 21)"
  | nameTooLong => "File name too long (os error 36)"
  | zeroCharacter => "file name contained an unexpected NUL byte"
  | notText => "stream did not contain valid UTF-8"

/-- A place in the tree of directories, by the steps that lead there, the last one first.
They start at the root or at the working directory; the steps up, which only the latter
can have, come before all others. -/
structure Location where
  fromRoot : Bool
  steps : List String
  deriving DecidableEq, Repr

namespace Location

/-- The place one step away. There is no step up from the root. -/
def move (p : Location) (step : String) : Location :=
  if step = "." then p
  else if step = ".." then
    match p.steps with
    | [] => if p.fromRoot then p else ⟨false, [".."]⟩
    | last :: rest =>
      if last = ".." then { p with steps := ".." :: p.steps } else { p with steps := rest }
  else { p with steps := step :: p.steps }

def name (p : Location) : String :=
  (if p.fromRoot then "/" else "") ++ "/".intercalate p.steps.reverse

/-- Whether a place is the root, or the working directory or above it. -/
def isAbove (p : Location) : Bool := p.steps.all (· == "..")

end Location

/-- A path with one step at least, or the root. -/
structure Path where
  fromRoot : Bool
  steps : List String
  endsInSlash : Bool
  deriving DecidableEq, Repr

namespace Path

/-- A path has fewer bytes than this. -/
def maxSize : Nat := 4096

/-- A step has no more bytes than this. -/
def maxStepSize : Nat := 255

def ofString (s : String) : Except FileFault Path :=
  if s.contains '\x00' then .error .zeroCharacter
  else if s.isEmpty then .error .missing
  else if maxSize ≤ s.utf8ByteSize then .error .nameTooLong
  else .ok ⟨s.startsWith "/", (s.splitOn "/").filter (!·.isEmpty), s.endsWith "/"⟩

def start (p : Path) : Location := ⟨p.fromRoot, []⟩

def way (p : Path) : List String := p.steps.dropLast

def last? (p : Path) : Option String := p.steps.getLast?

/-- Whether a path can only mean a directory. -/
def isOpen (p : Path) : Bool := p.endsInSlash || [none, some ".", some ".."].contains p.last?

def places (p : Path) : List Location :=
  (List.range p.steps.length).map fun n => (p.steps.take (n + 1)).foldl .move p.start

end Path

end ShowerTrack
