import Std.Data.TreeMap
import ShowerTrack.Detector
import ShowerTrack.Scalar

/-!
# Strip samples and pedestals

A strip delivers a few samples per event. In a physics run its pedestal is taken
off them, and what stays below the noise is suppressed. In a pedestal run their
mean is a level, and the levels of a strip give its pedestal: mean and rms.
-/

set_option autoImplicit false

namespace ShowerTrack

structure Pedestal (α : Type) where
  mean : α
  rms : α

inductive RunMode where
  | physics
  | pedestal
  deriving DecidableEq, Repr

inductive StripOutput (α : Type) where
  | hit (charge : α)
  | suppressed
  | level (mean : α)

abbrev PedestalTable (α : Type) := Std.TreeMap StripKey (Pedestal α)

section Samples

variable {α : Type} [Scalar α]

instance : Inhabited (Pedestal α) := ⟨⟨0, 0⟩⟩

def mean (xs : List α) : α := Scalar.sum xs / Scalar.ofNat xs.length

def highest : List α → α
  | [] => 0
  | x :: xs => xs.foldl Scalar.max x

/-- The output of a strip. Without samples there is none. -/
def stripOutput (mode : RunMode) (samples : List α) (pedestal : Pedestal α) (threshold : α) :
    StripOutput α :=
  if samples.isEmpty then .suppressed
  else
    match mode with
    | .pedestal => .level (mean samples)
    | .physics =>
      let charges := samples.map (· - pedestal.mean)
      if threshold * pedestal.rms < mean charges then .hit (highest charges) else .suppressed

/-- The pedestal of a strip, zero for a strip that the table does not list. -/
def PedestalTable.pedestal (t : PedestalTable α) (key : StripKey) : Pedestal α :=
  t.getD key default

end Samples

structure LevelSum (β : Type) where
  count : Nat
  sum : β
  squares : β

namespace LevelSum

variable {β : Type} [Scalar β]

def zero : LevelSum β := ⟨0, 0, 0⟩

def add (s : LevelSum β) (level : β) : LevelSum β :=
  ⟨s.count + 1, s.sum + level, s.squares + level * level⟩

def merge (s t : LevelSum β) : LevelSum β :=
  ⟨s.count + t.count, s.sum + t.sum, s.squares + t.squares⟩

def mean (s : LevelSum β) : β := s.sum / Scalar.ofNat s.count

/-- The mean square less the squared mean, never below 0. -/
def variance (s : LevelSum β) : β :=
  Scalar.max (s.squares / Scalar.ofNat s.count - s.mean * s.mean) 0

end LevelSum

abbrev Levels (β : Type) := Std.TreeMap StripKey (LevelSum β)

namespace Levels

variable {α β : Type} [Scalar α] [Scalar β] [Widening α β]

def add (l : Levels β) (key : StripKey) (level : α) : Levels β :=
  l.insert key ((l.getD key .zero).add (Widening.widen level))

def merge (l m : Levels β) : Levels β :=
  m.foldl (fun l key sums => l.insert key ((l.getD key .zero).merge sums)) l

def mergeAll (ls : List (Levels β)) : Levels β := ls.foldl merge ∅

def pedestalOf (s : LevelSum β) : Pedestal α :=
  ⟨Widening.narrow s.mean, Widening.narrow (Scalar.sqrt s.variance)⟩

def finish (l : Levels β) : PedestalTable α :=
  (l.filter fun _ s => s.count != 0).map fun _ s => pedestalOf s

end Levels

end ShowerTrack
