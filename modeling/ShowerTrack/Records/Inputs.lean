import ShowerTrack.Calorimeter.State
import ShowerTrack.Event
import ShowerTrack.Yaml.Record

/-!
# Input files

Lists of events, of block calibrations and of detector frames.
-/

set_option autoImplicit false

namespace ShowerTrack

open Yaml

def Detector.ofNode (n : Node) : Decode Detector := do
  Decode.ofOption (Detector.ofKey? (← n.choice))

def Plane.ofNode (n : Node) : Decode Plane := do
  Decode.ofOption (Plane.ofKey? (← n.choice))

def BlockEnergy.ofNode (n : Node) : Decode (BlockEnergy Float32) := do
  let r ← Record.ofNode ["id", "energy"] n
  return ⟨← r.get "id" (·.int32), ← r.get "energy" (·.single)⟩

def StripKey.ofRecord (r : Record) : Decode StripKey := do
  let detector ← r.get "detector" Detector.ofNode
  let plane ← r.get "plane" Plane.ofNode
  let strip ← r.get "strip" (·.int32)
  return ⟨detector, plane, strip⟩

def StripSamples.ofNode (n : Node) : Decode (StripSamples Float32) := do
  let r ← Record.ofNode ["detector", "plane", "strip", "samples"] n
  return ⟨← StripKey.ofRecord r, ← r.get "samples" (·.list (·.single))⟩

namespace RawEvent

/-- An event without blocks or strips may leave them out. -/
def ofNode (n : Node) : Decode (RawEvent Float32) := do
  let r ← Record.ofNode ["event_number", "modules", "gem"] n
  let number ← r.get "event_number" (·.word64)
  let blocks ← r.getOr "modules" [] (·.list BlockEnergy.ofNode)
  let strips ← r.getOr "gem" [] (·.list StripSamples.ofNode)
  return ⟨number, blocks, strips⟩

def readList? (text : String) : Option (List (RawEvent Float32)) :=
  Yaml.read? (·.list ofNode) text

end RawEvent

namespace BlockCalibration

def ofNode (n : Node) : Decode (BlockCalibration Float32) := do
  let r ← Record.ofNode ["id", "base_energy", "non_linear"] n
  let id ← r.get "id" (·.int32)
  let baseEnergy ← r.get "base_energy" (·.single)
  let nonLinear ← r.get "non_linear" (·.single)
  return ⟨id, baseEnergy, nonLinear⟩

def readList? (text : String) : Option (List (BlockCalibration Float32)) :=
  Yaml.read? (·.list ofNode) text

end BlockCalibration

namespace DetectorFrame

/-- A frame without tilts may leave them out. -/
def ofNode (n : Node) : Decode (DetectorFrame Float32) := do
  let r ← Record.ofNode ["run_number", "det", "x", "y", "z", "theta_x", "theta_y", "theta_z"] n
  let run ← r.get "run_number" (·.int32)
  let detector ← r.get "det" Detector.ofNode
  let x ← r.get "x" (·.single)
  let y ← r.get "y" (·.single)
  let z ← r.get "z" (·.single)
  let tiltX ← r.getOr "theta_x" 0 (·.single)
  let tiltY ← r.getOr "theta_y" 0 (·.single)
  let tiltZ ← r.getOr "theta_z" 0 (·.single)
  return ⟨run, detector, ⟨x, y, z⟩, ⟨tiltX, tiltY, tiltZ⟩⟩

def readList? (text : String) : Option (List (DetectorFrame Float32)) :=
  Yaml.read? (·.list ofNode) text

end DetectorFrame

end ShowerTrack
