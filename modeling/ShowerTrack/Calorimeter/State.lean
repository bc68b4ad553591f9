import ShowerTrack.Calorimeter.Hit
import ShowerTrack.Calorimeter.Primex
import ShowerTrack.Calorimeter.Square

/-!
# The calorimeter

Every block has a channel that says whether it is dead and sums the energy it
received since the last clearing. Reconstruction reads the channels, clusters
them and turns the accepted clusters into hits, up to a fixed number.
-/

set_option autoImplicit false

namespace ShowerTrack

def CaloSettings.clusters {α : Type} [Scalar α] (s : CaloSettings α) (p : Profile α)
    (hits : List (BlockHit α)) : List (BlockCluster α) :=
  match s.method with
  | .square => Square.clusters s hits
  | .island => Island.clusters s p hits
  | .primex => Primex.clusters s p hits

structure Channel (α : Type) where
  block : Block α
  dead : Bool
  energy : α

structure Calorimeter (α : Type) where
  channels : List (Channel α)
  blockHits : List (BlockHit α)
  clusters : List (BlockCluster α)
  hits : List (CaloHit α)
  overflow : Nat

inductive Reception where
  | taken
  | dead
  | unknown
  deriving DecidableEq, Repr

structure BlockCalibration (α : Type) where
  id : Int
  baseEnergy : α
  nonLinear : α

def maxCaloHits : Nat := 250

namespace Calorimeter

variable {α : Type}

section Arithmetic

variable [Scalar α]

def ofBlocks (blocks : List (Block α)) : Calorimeter α :=
  ⟨blocks.map fun b => ⟨b, false, 0⟩, [], [], [], 0⟩

def standard : Calorimeter α := ofBlocks Sectors.blocks

def indexIn (id : Int) : List (Channel α) → Option Nat
  | [] => none
  | c :: cs =>
    match indexIn id cs with
    | some i => some (i + 1)
    | none => if c.block.id = id then some 0 else none

def index? (d : Calorimeter α) (id : Int) : Option Nat := indexIn id d.channels

def channel? (d : Calorimeter α) (id : Int) : Option (Channel α) :=
  (d.index? id).bind (d.channels[·]?)

def block? (d : Calorimeter α) (id : Int) : Option (Block α) := (d.channel? id).map (·.block)

def isDead (d : Calorimeter α) (id : Int) : Bool := ((d.channel? id).map (·.dead)).getD false

def modify (d : Calorimeter α) (i : Nat) (f : Channel α → Channel α) : Calorimeter α :=
  { d with channels := d.channels.modify i f }

def withCalibration (c : Channel α) (calibration : Calibration α) : Channel α :=
  { c with block := { c.block with calibration } }

def setCalibration (d : Calorimeter α) (id : Int) (calibration : Calibration α) :
    Calorimeter α × Bool :=
  match d.index? id with
  | some i => (d.modify i (withCalibration · calibration), true)
  | none => (d, false)

def applyCalibrations (d : Calorimeter α) : List (BlockCalibration α) → Calorimeter α × Nat
  | [] => (d, 0)
  | c :: cs =>
    let (d, found) := d.setCalibration c.id ⟨c.baseEnergy, c.nonLinear⟩
    let (d, n) := applyCalibrations d cs
    (d, if found then n + 1 else n)

/-- Declares exactly the listed blocks dead. -/
def setDead (d : Calorimeter α) (ids : List Int) : Calorimeter α :=
  let dead := ids.filterMap d.index?
  { d with channels := d.channels.zipIdx.map fun (c, i) => { c with dead := dead.contains i } }

def deadNeighbors (d : Calorimeter α) (id : Int) : List (BlockHit α) :=
  match d.index? id with
  | none => []
  | some i =>
    match d.channels[i]? with
    | none => []
    | some c =>
      (d.channels.zipIdx.filter fun (e, j) =>
        j != i && e.dead && c.block.place.distance e.block.place < cornerAdjacent).map
          fun (e, _) => e.block.hit 0

def clear (d : Calorimeter α) : Calorimeter α :=
  { channels := d.channels.map fun c => { c with energy := 0 }
    blockHits := []
    clusters := []
    hits := []
    overflow := 0 }

/-- Adds energy to a block; only a positive energy counts. -/
def addEnergy (d : Calorimeter α) (id : Int) (energy : α) : Calorimeter α × Reception :=
  match d.index? id with
  | none => (d, .unknown)
  | some i =>
    if ((d.channels[i]?).map (·.dead)).getD false then (d, .dead)
    else if 0 < energy then
      (d.modify i fun c => { c with energy := c.energy + energy }, .taken)
    else (d, .taken)

def measured (d : Calorimeter α) : List (BlockHit α) :=
  (d.channels.filter fun c => 0 < c.energy).map fun c => c.block.hit c.energy

end Arithmetic

variable [Elementary α]

structure Tally (α : Type) where
  clusters : List (BlockCluster α)
  hits : List (CaloHit α)
  overflow : Nat

def finish (d : Calorimeter α) (s : CaloSettings α) (c : BlockCluster α) : CaloHit α :=
  s.reconstruct (((d.block? c.center.id).map (·.calibration)).getD .none) c

/-- A rejected cluster is kept as it is. An accepted one has its leakage recovered,
and becomes a hit while there is room. -/
def tally (d : Calorimeter α) (s : CaloSettings α) (p : Profile α) (t : Tally α)
    (c : BlockCluster α) : Tally α :=
  if s.accepts c then
    let c := s.recoverLeakage p (d.deadNeighbors c.center.id) c
    if maxCaloHits ≤ t.hits.length then
      { t with clusters := t.clusters ++ [c], overflow := t.overflow + 1 }
    else
      { t with clusters := t.clusters ++ [c], hits := t.hits ++ [d.finish s c] }
  else { t with clusters := t.clusters ++ [c] }

/-- Forms clusters of what is measured, in whatever way, and makes hits of them. -/
def reconstructBy (d : Calorimeter α) (form : List (BlockHit α) → List (BlockCluster α))
    (s : CaloSettings α) (p : Profile α) : Calorimeter α :=
  let blockHits := d.measured
  let t := (form blockHits).foldl (d.tally s p) ⟨[], [], 0⟩
  { d with blockHits, clusters := t.clusters, hits := t.hits, overflow := t.overflow }

def reconstruct (d : Calorimeter α) (s : CaloSettings α) (p : Profile α) : Calorimeter α :=
  d.reconstructBy (s.clusters p) s p

end Calorimeter

end ShowerTrack
