import ShowerTrack.Calorimeter.Hit
import ShowerTrack.Tracker.Chamber

/-!
# Alignment

Where the detectors are, run by run. A point of a detector is turned about x, then
y, then z, and shifted into the frame of the beam line.
-/

set_option autoImplicit false

namespace ShowerTrack

structure Point (α : Type) where
  x : α
  y : α
  z : α

/-- Offset and tilts of a detector from a run on. -/
structure DetectorFrame (α : Type) where
  run : Int
  detector : Detector
  offset : Point α
  tilt : Point α

/-- The frames of all detectors for one run. -/
structure Alignment (α : Type) where
  run : Int
  hyCal : DetectorFrame α
  gem1 : DetectorFrame α
  gem2 : DetectorFrame α

inductive AlignmentError where
  | noEntries
  | missingDetector (run : Int) (detector : Detector)
  deriving DecidableEq, Repr

variable {α : Type}

section Rotation

variable [Scalar α]

def turnX (sin cos : α) (p : Point α) : Point α :=
  ⟨p.x, p.y * cos - p.z * sin, p.y * sin + p.z * cos⟩

def turnY (sin cos : α) (p : Point α) : Point α :=
  ⟨p.x * cos + p.z * sin, p.y, -p.x * sin + p.z * cos⟩

def turnZ (sin cos : α) (p : Point α) : Point α :=
  ⟨p.x * cos - p.y * sin, p.x * sin + p.y * cos, p.z⟩

def shift (offset p : Point α) : Point α := ⟨p.x + offset.x, p.y + offset.y, p.z + offset.z⟩

/-- Moves a point along the line from the target to the plane at `zTo`. -/
def project (p : Point α) (targetZ zTo : α) : α × α :=
  let depth := p.z - targetZ
  if Scalar.same depth 0 then (p.x, p.y)
  else
    let scale := (zTo - targetZ) / depth
    (p.x * scale, p.y * scale)

end Rotation

namespace DetectorFrame

variable [Elementary α]

def nominalZ : Detector → α
  | .hyCal => 5817
  | .gem1 => 5407
  | .gem2 => 5367

def nominal (detector : Detector) : DetectorFrame α :=
  ⟨0, detector, ⟨0, 0, nominalZ detector⟩, ⟨0, 0, 0⟩⟩

def transform (f : DetectorFrame α) (p : Point α) : Point α :=
  let p := turnX (Elementary.sin f.tilt.x) (Elementary.cos f.tilt.x) p
  let p := turnY (Elementary.sin f.tilt.y) (Elementary.cos f.tilt.y) p
  let p := turnZ (Elementary.sin f.tilt.z) (Elementary.cos f.tilt.z) p
  shift f.offset p

end DetectorFrame

def CaloHit.point (h : CaloHit α) : Point α := ⟨h.x, h.y, h.z⟩

def CaloHit.at (h : CaloHit α) (p : Point α) : CaloHit α :=
  { h with x := p.x, y := p.y, z := p.z }

def TrackerHit.point (h : TrackerHit α) : Point α := ⟨h.x, h.y, h.z⟩

def TrackerHit.at (h : TrackerHit α) (p : Point α) : TrackerHit α :=
  { h with x := p.x, y := p.y, z := p.z }

namespace Alignment

variable [Elementary α]

def nominal : Alignment α := ⟨0, .nominal .hyCal, .nominal .gem1, .nominal .gem2⟩

def frame (a : Alignment α) : Detector → DetectorFrame α
  | .hyCal => a.hyCal
  | .gem1 => a.gem1
  | .gem2 => a.gem2

/-- The last run with entries not after a run; before all entries, the first one. -/
def chosenRun (entries : List (DetectorFrame α)) (run : Int) : Option Int :=
  let runs := entries.map (·.run)
  match (runs.filter (· ≤ run)).max? with
  | some r => some r
  | none => runs.min?

def frameOf (entries : List (DetectorFrame α)) (run : Int) (detector : Detector) :
    Except AlignmentError (DetectorFrame α) :=
  match entries.find? fun e => e.run == run && e.detector == detector with
  | some e => .ok e
  | none => .error (.missingDetector run detector)

def ofEntries (entries : List (DetectorFrame α)) (run : Int) :
    Except AlignmentError (Alignment α) :=
  match chosenRun entries run with
  | none => .error .noEntries
  | some r => do
    let hyCal ← frameOf entries r .hyCal
    let gem1 ← frameOf entries r .gem1
    let gem2 ← frameOf entries r .gem2
    pure ⟨r, hyCal, gem1, gem2⟩

def transform (a : Alignment α) (detector : Detector) (p : Point α) : Point α :=
  (a.frame detector).transform p

def alignCalo (a : Alignment α) (hits : List (CaloHit α)) : List (CaloHit α) :=
  hits.map fun h => h.at (a.transform .hyCal h.point)

def alignTracker (a : Alignment α) (detector : Detector) (hits : List (TrackerHit α)) :
    List (TrackerHit α) :=
  hits.map fun h => h.at (a.transform detector h.point)

end Alignment

end ShowerTrack
