import ShowerTrack.Folder.Path

/-!
# Folders

A folder of files by the names of their places. Each directory on the way to a file has
to be there, also one that the path leaves again.
-/

set_option autoImplicit false

namespace ShowerTrack

inductive FileEntry where
  | text (content : String)
  /-- Bytes that are no text. -/
  | binary (size : Nat)
  | directory
  deriving DecidableEq, Repr

structure Folder where
  entries : List (String × FileEntry)
  deriving DecidableEq, Repr

namespace Folder

def empty : Folder := ⟨[]⟩

def entry? (f : Folder) (name : String) : Option FileEntry := f.entries.lookup name

/-- Whether a place is a directory, or leads to a file. -/
def isDirectory (f : Folder) (p : Location) : Bool :=
  p.isAbove || f.entry? p.name == some .directory ||
    f.entries.any fun (other, _) => other.startsWith (p.name ++ "/")

def move (p : Location) (step : String) : Except FileFault Location :=
  if Path.maxStepSize < step.utf8ByteSize then .error .nameTooLong else .ok (p.move step)

def enter (f : Folder) (p : Location) (step : String) : Except FileFault Location := do
  let q ← move p step
  if f.isDirectory q then return q
  throw (if (f.entry? q.name).isSome then .notDirectory else .missing)

def parent (f : Folder) (p : Path) : Except FileFault Location := p.way.foldlM f.enter p.start

def find (f : Folder) (path : String) : Except FileFault FileEntry := do
  let p ← Path.ofString path
  let parent ← f.parent p
  let place ← match p.last? with
    | some step => move parent step
    | none => .ok parent
  if f.isDirectory place then return .directory
  match f.entry? place.name with
  | some e => if p.isOpen then throw .notDirectory else return e
  | none => throw .missing

/-- What a file holds. Nothing at all is not a fault here. -/
def read (f : Folder) (path : String) : Except FileFault (Option String) :=
  match f.find path with
  | .error _ => .ok none
  | .ok (.text s) => .ok (some s)
  | .ok (.binary _) => .error .notText
  | .ok .directory => .error .isDirectory

def size (f : Folder) (path : String) : Nat :=
  match f.find path with
  | .error _ => 0
  | .ok (.text s) => s.utf8ByteSize
  | .ok (.binary n) => n
  | .ok .directory => 4096

def put (f : Folder) (name : String) (e : FileEntry) : Folder :=
  if (f.entry? name).isSome then
    ⟨f.entries.map fun (other, old) => if other = name then (other, e) else (other, old)⟩
  else ⟨f.entries ++ [(name, e)]⟩

def erase (f : Folder) (name : String) : Folder := ⟨f.entries.filter (·.1 != name)⟩

def write (f : Folder) (path : String) (content : String) : Except FileFault Folder := do
  let p ← Path.ofString path
  let parent ← f.parent p
  if p.isOpen then throw .isDirectory
  let place ← move parent (p.last?.getD "")
  if f.isDirectory place then throw .isDirectory
  return f.put place.name (.text content)

end Folder

end ShowerTrack
