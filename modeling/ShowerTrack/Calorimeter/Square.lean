import ShowerTrack.Calorimeter.Cluster
import ShowerTrack.Settings

/-!
# Square windows

Every energetic local maximum opens a square window unless it lies in the window
of an earlier one; of two maxima in one window the stronger keeps it. The other
hits go to the nearest window that they lie in.
-/

set_option autoImplicit false

namespace ShowerTrack.Square

variable {α : Type} [Scalar α]

/-- Windows have an odd number of blocks on a side. -/
def windowSize (size : Nat) : Nat := Nat.max size 1 ||| 1

def inWindow (size : Nat) (seed hit : BlockHit α) : Bool :=
  let (dx, dy) := seed.place.spacing hit.place
  let half : α := Scalar.ofNat (windowSize size) / 2
  Scalar.abs dx < half && Scalar.abs dy < half

def isLocalMax (hits : List (BlockHit α)) (hit : BlockHit α) : Bool :=
  hits.all fun other =>
    other.id == hit.id || other.energy ≤ hit.energy || cornerAdjacent ≤ hit.distance other

abbrev Numbered (α : Type) := BlockHit α × Nat

def isSeed (s : CaloSettings α) (hits : List (BlockHit α)) (hit : BlockHit α) : Bool :=
  !(hit.energy < s.minCenterEnergy) && isLocalMax hits hit

/-- Gives a maximum the window it lies in if it is the stronger one, and a window
of its own if it lies in none. -/
def placeSeed (size : Nat) : List (Numbered α) → Numbered α → List (Numbered α)
  | [], hit => [hit]
  | seed :: seeds, hit =>
    if inWindow size seed.1 hit.1 then
      (if seed.1.energy < hit.1.energy then hit else seed) :: seeds
    else seed :: placeSeed size seeds hit

def seeds (s : CaloSettings α) (hits : List (BlockHit α)) : List (Numbered α) :=
  (hits.zipIdx.filter fun (hit, _) => isSeed s hits hit).foldl (placeSeed s.squareSize) []

def owner? (size : Nat) (seeds : List (Numbered α)) (hit : BlockHit α) : Option Nat :=
  let holding := seeds.zipIdx.filter fun (seed, _) => inWindow size seed.1 hit
  (firstLeast? (fun a b => nearer a.1 b.1)
    (holding.map fun (seed, pos) => (seed.1.nearness hit, pos))).map (·.2)

def window (owned : List (BlockHit α × Option Nat)) (seed : Numbered α) (pos : Nat) :
    BlockCluster α :=
  (BlockCluster.single seed.1).addAll ((owned.filter (·.2 == some pos)).map (·.1))

def clusters (s : CaloSettings α) (hits : List (BlockHit α)) : List (BlockCluster α) :=
  let hits := hits.filter fun hit => s.minBlockEnergy ≤ hit.energy
  let seeds := seeds s hits
  let free := (hits.zipIdx.filter fun (_, i) => seeds.all fun seed => seed.2 != i).map (·.1)
  let owned := free.map fun hit => (hit, owner? s.squareSize seeds hit)
  seeds.zipIdx.map fun (seed, pos) => window owned seed pos

end ShowerTrack.Square
