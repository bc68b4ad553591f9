import ShowerTrack.Scalar

/-!
# Settings

The thresholds of the reconstruction, with their defaults. Energies are in MeV,
lengths in mm.
-/

set_option autoImplicit false

namespace ShowerTrack

inductive ClusterMethod where
  | square
  | island
  | primex
  deriving DecidableEq, Repr

namespace ClusterMethod

def all : List ClusterMethod := [square, island, primex]

def key : ClusterMethod → String
  | square => "Square"
  | island => "Island"
  | primex => "Primex"

def ofKey? (s : String) : Option ClusterMethod := all.find? (·.key == s)

theorem ofKey?_key (m : ClusterMethod) : ofKey? m.key = some m := by
  cases m <;> decide

end ClusterMethod

variable {α : Type}

structure CaloSettings (α : Type) where
  method : ClusterMethod
  minBlockEnergy : α
  minCenterEnergy : α
  minClusterEnergy : α
  minClusterSize : Nat
  logWeightThreshold : α
  leakIterations : Nat
  leastLeak : α
  nonLinearLimit : α
  depthCorrection : Bool
  squareSize : Nat
  corners : Bool
  splitIterations : Nat
  leastSplit : α

structure TrackerSettings (α : Type) where
  minClusterHits : Nat
  maxClusterHits : Nat
  splitDifference : α
  crossTalkThreshold : α
  zeroSuppression : α

structure MatchSettings (α : Type) where
  sigma : α
  crystalResolution : α
  glassResolution : α
  transitionResolution : α
  targetZ : α

structure Settings (α : Type) where
  calorimeter : CaloSettings α
  tracker : TrackerSettings α
  matching : MatchSettings α
  deadBlocks : List Int

variable [Scalar α]

def CaloSettings.standard : CaloSettings α :=
  { method := .island
    minBlockEnergy := 1
    minCenterEnergy := 10
    minClusterEnergy := 50
    minClusterSize := 1
    logWeightThreshold := 3.6
    leakIterations := 3
    leastLeak := 0.05
    nonLinearLimit := 0.6
    depthCorrection := true
    squareSize := 5
    corners := false
    splitIterations := 6
    leastSplit := 0.01 }

def TrackerSettings.standard : TrackerSettings α :=
  { minClusterHits := 1
    maxClusterHits := 20
    splitDifference := 14
    crossTalkThreshold := 0
    zeroSuppression := 5 }

def MatchSettings.standard : MatchSettings α :=
  { sigma := 3
    crystalResolution := 2.5
    glassResolution := 6.5
    transitionResolution := 5
    targetZ := 0 }

def Settings.standard : Settings α := ⟨.standard, .standard, .standard, []⟩

instance : Inhabited (CaloSettings α) := ⟨.standard⟩

instance : Inhabited (TrackerSettings α) := ⟨.standard⟩

instance : Inhabited (MatchSettings α) := ⟨.standard⟩

instance : Inhabited (Settings α) := ⟨.standard⟩

end ShowerTrack
