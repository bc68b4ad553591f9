import ShowerTrack.Alignment
import ShowerTrack.Settings

/-!
# Matching

A calorimeter hit is matched with the tracker hits inside its window. The one of
the two that is nearer to the target is projected to the plane of the other
before their distance is taken.
-/

set_option autoImplicit false

namespace ShowerTrack

/-- The tracker hits matched to one calorimeter hit, by their positions in the
lists of hits, nearest first. -/
structure Match where
  hyCal : Nat
  gem1 : Option Nat
  gem2 : Option Nat
  gem1Candidates : List Nat
  gem2Candidates : List Nat
  best : Option (Detector × Nat)
  flags : Flags
  deriving DecidableEq, Repr

def Match.isOverlap (m : Match) : Bool := m.flags.test .overlapMatch

namespace MatchSettings

variable {α : Type}

section Arithmetic

variable [Scalar α]

def resolution (s : MatchSettings α) (flags : Flags) : α :=
  if flags.test .transition then s.transitionResolution
  else if flags.test .crystal then s.crystalResolution
  else s.glassResolution

def window (s : MatchSettings α) (flags : Flags) : α := s.sigma * s.resolution flags

/-- The transverse separation of two points in the plane of the farther one. -/
def separation (s : MatchSettings α) (calo tracker : Point α) : α × α :=
  if tracker.z ≤ calo.z then
    let (x, y) := project tracker s.targetZ calo.z
    (calo.x - x, calo.y - y)
  else
    let (x, y) := project calo s.targetZ tracker.z
    (x - tracker.x, y - tracker.y)

end Arithmetic

variable [Elementary α]

def distance (s : MatchSettings α) (calo tracker : Point α) : α :=
  let (dx, dy) := s.separation calo tracker
  Elementary.hypot dx dy

def candidates (s : MatchSettings α) (hit : CaloHit α) (tracker : List (TrackerHit α)) :
    List (Nat × α) :=
  let found := (tracker.zipIdx.map fun (t, i) => (i, s.distance hit.point t.point)).filter
    fun (_, d) => d < s.window hit.flags
  found.mergeSort fun a b => a.2 ≤ b.2

def choose : List (Nat × α) → List (Nat × α) → Option (Detector × Nat) × Flags
  | [], [] => (none, .empty)
  | a :: _, [] => (some (.gem1, a.1), .ofList [.gem1Match])
  | [], b :: _ => (some (.gem2, b.1), .ofList [.gem2Match])
  | a :: _, b :: _ =>
    (some (if b.2 < a.2 then (.gem2, b.1) else (.gem1, a.1)),
      .ofList [.gem1Match, .gem2Match, .overlapMatch])

def matchHit (s : MatchSettings α) (gem1 gem2 : List (TrackerHit α)) (hit : CaloHit α)
    (i : Nat) : Match :=
  let c1 := s.candidates hit gem1
  let c2 := s.candidates hit gem2
  let (best, flags) := choose c1 c2
  { hyCal := i
    gem1 := c1.head?.map (·.1)
    gem2 := c2.head?.map (·.1)
    gem1Candidates := c1.map (·.1)
    gem2Candidates := c2.map (·.1)
    best, flags }

def matchHits (s : MatchSettings α) (calo : List (CaloHit α))
    (gem1 gem2 : List (TrackerHit α)) : List Match :=
  calo.zipIdx.map fun (hit, i) => s.matchHit gem1 gem2 hit i

end MatchSettings

end ShowerTrack
