import ShowerTrack.Tracker.Plane

/-!
# Tracker chambers

A chamber has an x plane and a y plane, read out by cards that plug into their
slots. Every cluster of one plane is crossed with every cluster of the other, up
to a fixed number of hits.
-/

set_option autoImplicit false

namespace ShowerTrack

structure TrackerHit (α : Type) where
  detector : Detector
  x : α
  y : α
  z : α
  xCharge : α
  yCharge : α
  xPeak : α
  yPeak : α
  xSize : Nat
  ySize : Nat

structure Card where
  plane : Plane
  slot : Nat
  deriving DecidableEq, Repr

def maxTrackerHits : Nat := 250

structure Chamber (α : Type) where
  detector : Detector
  xPlane : StripPlane α
  yPlane : StripPlane α
  cards : List Card
  hits : List (TrackerHit α)
  overflow : Nat

variable {α : Type} [Scalar α]

def TrackerHit.cross (detector : Detector) (x y : StripCluster α) : TrackerHit α :=
  { detector
    x := x.position
    y := y.position
    z := 0
    xCharge := x.total
    yCharge := y.total
    xPeak := x.peak
    yPeak := y.peak
    xSize := x.size
    ySize := y.size }

/-- Crosses one x cluster with clusters of the y plane while there is room. Says
whether room ran out. -/
def crossRow (detector : Detector) (x : StripCluster α) :
    List (StripCluster α) → List (TrackerHit α) → List (TrackerHit α) × Bool
  | [], hits => (hits, false)
  | y :: ys, hits =>
    if maxTrackerHits ≤ hits.length then (hits, true)
    else crossRow detector x ys (hits ++ [.cross detector x y])

def crossRows (detector : Detector) (ys : List (StripCluster α)) :
    List (StripCluster α) → List (TrackerHit α) → List (TrackerHit α) × Bool
  | [], hits => (hits, false)
  | x :: xs, hits =>
    match crossRow detector x ys hits with
    | (hits, true) => (hits, true)
    | (hits, false) => crossRows detector ys xs hits

def crossings (detector : Detector) (xs ys : List (StripCluster α)) :
    List (TrackerHit α) × Nat :=
  match crossRows detector ys xs [] with
  | (hits, true) => (hits, xs.length * ys.length - maxTrackerHits)
  | (hits, false) => (hits, 0)

namespace Chamber

def build (detector : Detector) (xPlane yPlane : StripPlane α) : Chamber α :=
  ⟨detector, xPlane, yPlane, [], [], 0⟩

def plane (c : Chamber α) : Plane → StripPlane α
  | .x => c.xPlane
  | .y => c.yPlane

def withPlane (c : Chamber α) (kind : Plane) (p : StripPlane α) : Chamber α :=
  match kind with
  | .x => { c with xPlane := p }
  | .y => { c with yPlane := p }

/-- Plugs a card into a slot. Gives its index, and whether the slot was free. -/
def connect (c : Chamber α) (kind : Plane) (slot : Nat) : Chamber α × Nat × Bool :=
  match c.cards.findIdx? (· == ⟨kind, slot⟩) with
  | some i => (c, i, false)
  | none =>
    let i := c.cards.length
    let p := c.plane kind
    ({ c.withPlane kind { p with cards := p.cards ++ [i] } with
        cards := c.cards ++ [⟨kind, slot⟩] }, i, true)

def connectAll (c : Chamber α) (cards : List Card) : Chamber α :=
  cards.foldl (fun c card => (c.connect card.plane card.slot).1) c

/-- A chamber with a card in every slot. -/
def standard (detector : Detector) : Chamber α :=
  (build detector (.standard .x) (.standard .y)).connectAll <|
    Plane.all.flatMap fun kind => (List.range (StripPlane.cardsOf kind)).map (⟨kind, ·⟩)

def add (c : Chamber α) (kind : Plane) (strip : Int) (charge : α) : Chamber α × Acceptance :=
  let (p, acceptance) := (c.plane kind).add strip charge false
  (c.withPlane kind p, acceptance)

def clear (c : Chamber α) : Chamber α :=
  { c with xPlane := c.xPlane.clear, yPlane := c.yPlane.clear, hits := [], overflow := 0 }

def unread? (c : Chamber α) : Option Plane :=
  Plane.all.find? fun kind => (c.plane kind).cards.isEmpty

/-- Clusters both planes and crosses them. A chamber with an unread plane has no hits. -/
def reconstruct (c : Chamber α) (s : TrackerSettings α) : Chamber α :=
  match c.unread? with
  | some _ => { c with hits := [], overflow := 0 }
  | none =>
    let xPlane := c.xPlane.cluster s
    let yPlane := c.yPlane.cluster s
    let (hits, overflow) := crossings c.detector xPlane.clusters yPlane.clusters
    { c with xPlane, yPlane, hits, overflow }

end Chamber

end ShowerTrack
