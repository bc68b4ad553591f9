import ShowerTrack.Calorimeter.Cluster
import ShowerTrack.Calorimeter.Profile
import ShowerTrack.Calorimeter.Sharing
import ShowerTrack.Partition
import ShowerTrack.Settings

/-!
# Islands

The hits of a sector are cut into runs along its columns, touching runs are
joined, and groups of different sectors that touch are glued. A group with one
local maximum is a cluster; one with several is shared between them.
-/

set_option autoImplicit false

namespace ShowerTrack

variable {α : Type} [Scalar α]

def hitSectors (hits : List (BlockHit α)) : List Nat :=
  (hits.map (·.site.sector)).eraseDups.mergeSort

def inSector (sector : Nat) (hits : List (BlockHit α)) : List (BlockHit α) :=
  hits.filter (·.site.sector == sector)

namespace Island

/-- A run of hits in consecutive rows of one column. -/
structure Chain (α : Type) where
  column : Nat
  firstRow : Nat
  lastRow : Nat
  hits : List (BlockHit α)

def columnOrder (a b : BlockHit α) : Bool :=
  a.site.column < b.site.column ||
    (a.site.column == b.site.column && a.site.row ≤ b.site.row)

def continues (a b : BlockHit α) : Bool :=
  a.site.column == b.site.column && b.site.row == a.site.row + 1

def Chain.ofRun? : List (BlockHit α) → Option (Chain α)
  | [] => none
  | h :: t => some ⟨h.site.column, h.site.row, (t.getLastD h).site.row, h :: t⟩

def chains (hits : List (BlockHit α)) : List (Chain α) :=
  ((hits.mergeSort columnOrder).splitBy continues).filterMap Chain.ofRun?

def Chain.touches (corners : Bool) (a b : Chain α) : Bool :=
  (a.column == b.column + 1 || b.column == a.column + 1) &&
    (let margin := if corners then 1 else 0
     a.firstRow ≤ b.lastRow + margin && b.firstRow ≤ a.lastRow + margin)

def Chain.reaches (a b : Chain α) : Bool := b.column ≤ a.column + 1

def sectorGroups (corners : Bool) (hits : List (BlockHit α)) : List (List (BlockHit α)) :=
  (connectedWithin Chain.reaches (Chain.touches corners) (chains hits)).map
    fun members => members.flatMap (·.hits)

def glue (corners : Bool) (groups : List (Nat × List (BlockHit α))) :
    List (List (BlockHit α)) :=
  (connected (fun a b => a.1 != b.1 && touching corners a.2 b.2) groups).map
    fun members => members.flatMap (·.2)

def groups (s : CaloSettings α) (hits : List (BlockHit α)) : List (List (BlockHit α)) :=
  let live := hits.filter fun hit => s.minBlockEnergy ≤ hit.energy
  glue s.corners <| (hitSectors live).flatMap fun sector =>
    (sectorGroups s.corners (inSector sector live)).map fun group => (sector, group)

/-- Whether hit number `i` yields to no neighbor; of equal ones the earlier stays. -/
def isMaximum (s : CaloSettings α) (group : List (BlockHit α)) (hit : BlockHit α) (i : Nat) :
    Bool :=
  s.minCenterEnergy ≤ hit.energy && group.zipIdx.all fun (other, j) =>
    j == i || cornerAdjacent ≤ hit.distance other || other.energy < hit.energy ||
      (Scalar.same other.energy hit.energy && i < j)

def localMaxima (s : CaloSettings α) (group : List (BlockHit α)) : List (BlockHit α × Nat) :=
  group.zipIdx.filter fun (hit, i) => isMaximum s group hit i

def nearestMaximum (maxima : List (BlockHit α × Nat)) (hit : BlockHit α) : Nat :=
  ((firstLeast? (fun a b => nearer a.1 b.1)
    (maxima.zipIdx.map fun (m, k) => (hit.nearness m.1, k))).map (·.2)).getD 0

def sharing (p : Profile α) (group : List (BlockHit α)) (maxima : List (BlockHit α × Nat)) :
    Sharing α (BlockHit α) :=
  { items := group
    peaks := maxima.map (·.1)
    energy := (·.energy)
    position := fun hit => (hit.place.x, hit.place.y)
    fraction := fun hit => p.fractionAt hit.place
    nearest := nearestMaximum maxima
    inCore := fun peak hit => peak.distance hit < cornerAdjacent }

def scaled (hit : BlockHit α) (share : α) : BlockHit α :=
  { hit with energy := hit.energy * share }

/-- The cluster of maximum number `k`: the maximum first, then all hits whose
share in it is large enough. -/
def sharedCluster (s : CaloSettings α) (rows : List (BlockHit α × Array α))
    (maximum : BlockHit α × Nat) (k : Nat) : BlockCluster α :=
  let share (i : Nat) : α := (rows[i]?.map fun r => r.2.getD k 0).getD 0
  let others := rows.zipIdx.filter fun (r, i) =>
    i != maximum.2 && !(r.2.getD k 0 < s.leastSplit)
  ((BlockCluster.single (scaled maximum.1 (share maximum.2))).addAll
    (others.map fun (r, _) => scaled r.1 (r.2.getD k 0))).setFlag .split

def split (s : CaloSettings α) (p : Profile α) (group : List (BlockHit α)) :
    List (BlockCluster α) :=
  match localMaxima s group with
  | [] => []
  | [_] => [.ofHits group]
  | maxima =>
    let rows := (sharing p group maxima).shares s.splitIterations
    maxima.zipIdx.map fun (m, k) => sharedCluster s rows m k

def clusters (s : CaloSettings α) (p : Profile α) (hits : List (BlockHit α)) :
    List (BlockCluster α) :=
  (groups s hits).flatMap (split s p)

end Island

end ShowerTrack
