import ShowerTrack.Calorimeter.Grid
import ShowerTrack.Calorimeter.Island
import ShowerTrack.Calorimeter.Sectors

/-!
# Glued grid clusters

The hits of each sector are painted on its grid and clustered there. Clusters of
different sectors whose blocks touch are then glued into one.
-/

set_option autoImplicit false

namespace ShowerTrack.Primex

variable {α : Type} [Scalar α]

def gridSettings (s : CaloSettings α) : GridSettings α :=
  { minCellEnergy := s.minBlockEnergy
    minCenterEnergy := s.minCenterEnergy
    corners := s.corners
    splitIterations := s.splitIterations
    leastSplit := s.leastSplit }

def onGrid (shape : Nat × Nat) (hits : List (BlockHit α)) : List (BlockHit α) :=
  hits.filter fun hit => hit.site.row < shape.1 && hit.site.column < shape.2

def paint (shape : Nat × Nat) (hits : List (BlockHit α)) : Grid α :=
  .tabulate shape.1 shape.2 fun cell =>
    (hits.filter (·.site.cell == cell)).foldl (fun e hit => e + hit.energy) 0

/-- The block hit behind a cell, the last one if there are several. -/
def hitAt? (hits : List (BlockHit α)) (cell : Cell) : Option (BlockHit α) :=
  hits.reverse.find? (·.site.cell == cell)

/-- The peak comes first, so that it stays the center among equal energies. -/
def toCluster (hits : List (BlockHit α)) (raw : GridCluster α) : BlockCluster α :=
  let peak := (raw.cells.find? (·.1 == raw.peak)).toList
  let rest := raw.cells.filter (·.1 != raw.peak)
  let found := (peak ++ rest).filterMap fun (cell, energy) =>
    (hitAt? hits cell).map fun hit => { hit with energy }
  let cluster := BlockCluster.ofHits found
  if raw.split then cluster.setFlag .split else cluster

def sectorClusters (s : CaloSettings α) (p : Profile α) (sector : Nat)
    (hits : List (BlockHit α)) : List (BlockCluster α) :=
  let shape := Sectors.shape sector
  let hits := onGrid shape hits
  (((paint shape hits).clusters (gridSettings s) (p.fraction (Sectors.kind sector))).map
    (toCluster hits)).filter (!·.isEmpty)

def found (s : CaloSettings α) (p : Profile α) (hits : List (BlockHit α)) :
    List (Nat × BlockCluster α) :=
  (hitSectors hits).flatMap fun sector =>
    (sectorClusters s p sector (inSector sector hits)).map fun c => (sector, c)

def glue (corners : Bool) (found : List (Nat × BlockCluster α)) : List (BlockCluster α) :=
  (connected (fun a b => a.1 != b.1 && touching corners a.2.hits b.2.hits) found).map
    fun members => .mergeAll (members.map (·.2))

def clusters (s : CaloSettings α) (p : Profile α) (hits : List (BlockHit α)) :
    List (BlockCluster α) :=
  glue s.corners (found s p hits)

end ShowerTrack.Primex
