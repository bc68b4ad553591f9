import ShowerTrack.Calorimeter.Cluster
import ShowerTrack.Calorimeter.Profile
import ShowerTrack.Calorimeter.Sectors
import ShowerTrack.Settings

/-!
# Calorimeter hits

An accepted cluster becomes a hit. Energy lost in dead blocks around its center
is estimated from the profile and added first; the position is a logarithmically
weighted mean over the blocks around the center, the depth follows from the
energy, and the energy is corrected for the nonlinear response of the center.
-/

set_option autoImplicit false

namespace ShowerTrack

structure CaloHit (α : Type) where
  block : Int
  flags : Flags
  x : α
  y : α
  z : α
  energy : α
  linearity : α
  leakage : α
  blocks : Nat
  located : Nat

variable {α : Type}

namespace CaloSettings

section Arithmetic

variable [Scalar α]

def accepts (s : CaloSettings α) (c : BlockCluster α) : Bool :=
  s.minClusterEnergy ≤ c.energy && s.minClusterSize ≤ c.hits.length

def radiationLength : BlockKind → α
  | .crystal => 8.6
  | .glass => 26.7

def criticalEnergy : BlockKind → α
  | .crystal => 1.1
  | .glass => 2.84

/-- What each dead block would have measured of a shower at `(x, y)`. -/
def estimates (p : Profile α) (dead : List (BlockHit α)) (x y energy : α) :
    List (BlockHit α) :=
  dead.map fun b => { b with energy := p.fractionAt b.place x y * energy }

def recover (threshold : α) (c : BlockCluster α) (leak : BlockHit α) : BlockCluster α :=
  if threshold < leak.energy then
    ({ c with leakage := c.leakage + leak.energy }.add leak).setFlag .leakCorrected
  else c

end Arithmetic

variable [Elementary α]

def logWeight (s : CaloSettings α) (energy total : α) : α :=
  if energy ≤ 0 ∨ total ≤ 0 then 0
  else Scalar.max (s.logWeightThreshold + Elementary.ln (energy / total)) 0

def showerDepth (s : CaloSettings α) (kind : BlockKind) (energy : α) : α :=
  if !s.depthCorrection ∨ energy ≤ 0 then 0
  else radiationLength kind * Elementary.log2 (energy / criticalEnergy kind)

structure Weighted (α : Type) where
  x : α
  y : α
  weight : α

def Weighted.add (s : CaloSettings α) (total : α) (m : Weighted α) (h : BlockHit α) :
    Weighted α :=
  let w := s.logWeight h.energy total
  ⟨m.x + w * h.place.x, m.y + w * h.place.y, m.weight + w⟩

def core (center : BlockHit α) (hits : List (BlockHit α)) : List (BlockHit α) :=
  hits.filter fun h => center.distance h < cornerAdjacent

/-- The weighted position of the hits around a center, the position of the center
itself if they have no weight. -/
def position (s : CaloSettings α) (center : BlockHit α) (hits : List (BlockHit α)) : α × α :=
  let near := core center hits
  let total := Scalar.sum (near.map (·.energy))
  let m := near.foldl (Weighted.add s total) ⟨0, 0, 0⟩
  if 0 < m.weight then (m.x / m.weight, m.y / m.weight)
  else (center.place.x, center.place.y)

/-- The estimates after a number of rounds. The first places the shower at the
center; every round moves it by the estimates before. -/
def leakEstimates (s : CaloSettings α) (p : Profile α) (c : BlockCluster α)
    (dead : List (BlockHit α)) : Nat → List (BlockHit α)
  | 0 => estimates p dead c.center.place.x c.center.place.y c.energy
  | n + 1 =>
    let (x, y) := s.position c.center (c.hits ++ leakEstimates s p c dead n)
    estimates p dead x y c.energy

def recoverLeakage (s : CaloSettings α) (p : Profile α) (dead : List (BlockHit α))
    (c : BlockCluster α) : BlockCluster α :=
  if dead.isEmpty || c.isEmpty then c
  else
    (leakEstimates s p c dead s.leakIterations).foldl (recover (s.leastLeak * c.energy))
      (c.setFlag .deadNeighbor)

def linearized (s : CaloSettings α) (calibration : Calibration α) (energy : α) : α × α :=
  let alpha := calibration.alpha energy
  if Scalar.abs alpha < s.nonLinearLimit then
    let factor := 1 / (1 + alpha)
    (energy * factor, factor)
  else (energy, 1)

def reconstruct (s : CaloSettings α) (calibration : Calibration α) (c : BlockCluster α) :
    CaloHit α :=
  let (x, y) := s.position c.center c.hits
  let (energy, linearity) := s.linearized calibration c.energy
  { block := c.center.id
    flags := c.flags.union c.center.site.flags
    x, y
    z := c.center.place.z + s.showerDepth c.center.place.kind energy
    energy, linearity
    leakage := if 0 < c.energy then c.leakage / c.energy else 0
    blocks := c.hits.length
    located := (core c.center c.hits).length }

end CaloSettings

end ShowerTrack
