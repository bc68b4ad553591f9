import ShowerTrack.Settings
import ShowerTrack.Yaml.Value

/-!
# Setup files

Settings as a flat mapping of their names to values. A setting that is missing or
malformed is replaced by its default, and a warning says so; names that mean nothing
are passed over.
-/

set_option autoImplicit false

namespace ShowerTrack

open Yaml

inductive SetupWarning where
  | missing (key default : String)
  | malformed (key default : String)
  deriving DecidableEq, Repr

namespace SetupWarning

def key : SetupWarning → String
  | missing key _ => key
  | malformed key _ => key

def text : SetupWarning → String
  | missing key default =>
    "setting '" ++ key ++ "' is missing, using default " ++ default
  | malformed key default =>
    "setting '" ++ key ++ "' is malformed, using default " ++ default

end SetupWarning

structure SetupEntry where
  key : String
  default : String
  isDefault : Settings Float32 → Bool
  set? : Value → Settings Float32 → Option (Settings Float32)

namespace SetupEntry

abbrev S := Settings Float32

def number (key : String) (get : S → Float32) (set : S → Float32 → S) : SetupEntry :=
  { key
    default := singleText (get .standard)
    isDefault := fun s => Scalar.same (get s) (get .standard)
    set? := fun v s => v.single?.map (set s) }

def count (key : String) (get : S → Nat) (set : S → Nat → S) : SetupEntry :=
  { key
    default := toString (get .standard)
    isDefault := fun s => get s == get .standard
    set? := fun v s => v.natural?.map (set s) }

def toggle (key : String) (get : S → Bool) (set : S → Bool → S) : SetupEntry :=
  { key
    default := if get .standard then "true" else "false"
    isDefault := fun s => get s == get .standard
    set? := fun v s => v.bool?.map (set s) }

def method : SetupEntry :=
  { key := "Cluster Method"
    default := (Settings.standard : S).calorimeter.method.key
    isDefault := fun s => s.calorimeter.method == (Settings.standard : S).calorimeter.method
    set? := fun v s => (v.choice?.bind ClusterMethod.ofKey?).map fun m =>
      { s with calorimeter.method := m } }

def deadBlocks : SetupEntry :=
  { key := "Dead Modules"
    default := "[]"
    isDefault := fun s => s.deadBlocks.isEmpty
    set? := fun v s =>
      (v.list?.bind (·.mapM (·.int? (-Int.pow 2 31) (Int.pow 2 31 - 1)))).map fun ids =>
        { s with deadBlocks := ids } }

/-- The settings in the order in which they are looked up. -/
def all : List SetupEntry :=
  [method,
    number "Min Module Energy" (·.calorimeter.minBlockEnergy) fun s x =>
      { s with calorimeter.minBlockEnergy := x },
    number "Min Center Energy" (·.calorimeter.minCenterEnergy) fun s x =>
      { s with calorimeter.minCenterEnergy := x },
    number "Min Cluster Energy" (·.calorimeter.minClusterEnergy) fun s x =>
      { s with calorimeter.minClusterEnergy := x },
    count "Minimum Cluster Size" (·.calorimeter.minClusterSize) fun s n =>
      { s with calorimeter.minClusterSize := n },
    number "Log Weight Threshold" (·.calorimeter.logWeightThreshold) fun s x =>
      { s with calorimeter.logWeightThreshold := x },
    count "Leakage Iterations" (·.calorimeter.leakIterations) fun s n =>
      { s with calorimeter.leakIterations := n },
    number "Least Leakage Fraction" (·.calorimeter.leastLeak) fun s x =>
      { s with calorimeter.leastLeak := x },
    number "Non Linearity Limit" (·.calorimeter.nonLinearLimit) fun s x =>
      { s with calorimeter.nonLinearLimit := x },
    toggle "Shower Depth Correction" (·.calorimeter.depthCorrection) fun s b =>
      { s with calorimeter.depthCorrection := b },
    count "Square Size" (·.calorimeter.squareSize) fun s n =>
      { s with calorimeter.squareSize := n },
    toggle "Corner Connection" (·.calorimeter.corners) fun s b =>
      { s with calorimeter.corners := b },
    count "Split Iteration" (·.calorimeter.splitIterations) fun s n =>
      { s with calorimeter.splitIterations := n },
    number "Least Split Fraction" (·.calorimeter.leastSplit) fun s x =>
      { s with calorimeter.leastSplit := x },
    count "MIN_CLUSTER_HITS" (·.tracker.minClusterHits) fun s n =>
      { s with tracker.minClusterHits := n },
    count "MAX_CLUSTER_HITS" (·.tracker.maxClusterHits) fun s n =>
      { s with tracker.maxClusterHits := n },
    number "SPLIT_CLUSTER_DIFF" (·.tracker.splitDifference) fun s x =>
      { s with tracker.splitDifference := x },
    number "CROSS_TALK_THRESHOLD" (·.tracker.crossTalkThreshold) fun s x =>
      { s with tracker.crossTalkThreshold := x },
    number "Zero Suppression Threshold" (·.tracker.zeroSuppression) fun s x =>
      { s with tracker.zeroSuppression := x },
    number "Matching Sigma" (·.matching.sigma) fun s x => { s with matching.sigma := x },
    number "PbWO4 Resolution" (·.matching.crystalResolution) fun s x =>
      { s with matching.crystalResolution := x },
    number "PbGlass Resolution" (·.matching.glassResolution) fun s x =>
      { s with matching.glassResolution := x },
    number "Transition Resolution" (·.matching.transitionResolution) fun s x =>
      { s with matching.transitionResolution := x },
    number "Target Z" (·.matching.targetZ) fun s x => { s with matching.targetZ := x },
    deadBlocks]

end SetupEntry

/-- What a setup file says: the settings, the defaults that had to stand in, and the
names without a meaning. -/
structure Setup where
  settings : Settings Float32
  warnings : List SetupWarning
  unknown : List Value

inductive SetupFault where
  | notYaml
  | notMapping
  deriving DecidableEq, Repr

namespace Setup

def standard : Setup := ⟨.standard, [], []⟩

def isDefault (s : Settings Float32) : Bool := SetupEntry.all.all (·.isDefault s)

/-- Takes an entry out of a mapping; the last entry moves into its place. -/
def takeOut (key : String) (entries : List (Value × Value)) :
    Option (Value × List (Value × Value)) :=
  match entries.findIdx? (·.1.same (.string key)), entries.getLast? with
  | some i, some last =>
    entries[i]?.map fun e => (e.2, (entries.set i last).dropLast)
  | _, _ => none

def lookUp : List SetupEntry → Settings Float32 → List (Value × Value) → Setup
  | [], s, entries => ⟨s, [], entries.map (·.1)⟩
  | e :: es, s, entries =>
    match takeOut e.key entries with
    | none =>
      let rest := lookUp es s entries
      { rest with warnings := .missing e.key e.default :: rest.warnings }
    | some (v, entries) =>
      match e.set? v s with
      | some s => lookUp es s entries
      | none =>
        let rest := lookUp es s entries
        { rest with warnings := .malformed e.key e.default :: rest.warnings }

def ofEntries (entries : List (Value × Value)) : Setup :=
  lookUp SetupEntry.all .standard entries

/-- Reads a setup file. A text of blanks is an empty mapping. -/
def read (text : String) : Except SetupFault Setup :=
  if text.toList.all Text.isBlank then .ok (ofEntries [])
  else
    match Value.read? text with
    | some (.mapping entries) => .ok (ofEntries entries)
    | some .null => .ok (ofEntries [])
    | some _ => .error .notMapping
    | none => .error .notYaml

end Setup

end ShowerTrack
