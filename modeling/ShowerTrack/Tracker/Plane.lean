import ShowerTrack.Detector
import ShowerTrack.Tracker.Clustering

/-!
# Readout planes

A plane knows where its strips are and which of them fired in the event. Only the
first hit of a strip counts. The strips at the ends of an x plane float and are
never read.
-/

set_option autoImplicit false

namespace ShowerTrack

inductive Acceptance where
  | taken
  | guarded
  | outside
  | repeated
  deriving DecidableEq, Repr

structure StripPlane (α : Type) where
  kind : Plane
  size : α
  pitch : α
  orient : α
  strips : Nat
  /-- The cards on this plane, as indices into the list of the chamber. -/
  cards : List Nat
  fired : Array Bool
  hits : List (StripHit α)
  clusters : List (StripCluster α)

namespace StripPlane

variable {α : Type} [Scalar α]

def firstReadStrip : Int := 16

def lastReadStrip : Int := 1391

/-- Strips by which the two halves of an x plane overlap. -/
def overlapStrips : α := 31

def channelsPerCard : Nat := 128

def cardsOf : Plane → Nat
  | .x => 12
  | .y => 24

def sizeOf : Plane → α
  | .x => 550.4
  | .y => 1228.8

def build (kind : Plane) (size pitch orient : α) (strips : Nat) : StripPlane α :=
  ⟨kind, size, pitch, orient, strips, [], .replicate strips false, [], []⟩

def standard (kind : Plane) : StripPlane α :=
  build kind (sizeOf kind) 0.4 1 (cardsOf kind * channelsPerCard)

def offset (p : StripPlane α) : α :=
  match p.kind with
  | .x => -0.5 * (p.size + overlapStrips * p.pitch)
  | .y => -0.5 * p.size

def stripPosition (p : StripPlane α) (strip : Int) : α :=
  p.orient * (p.offset + p.pitch * Scalar.ofInt strip)

def isGuard (p : StripPlane α) (strip : Int) : Bool :=
  p.kind == .x && !(firstReadStrip ≤ strip && strip ≤ lastReadStrip)

def hasFired (p : StripPlane α) (strip : Int) : Bool := p.fired.getD strip.toNat false

def judge (p : StripPlane α) (strip : Int) : Acceptance :=
  if p.isGuard strip then .guarded
  else if strip < 0 || (p.strips : Int) ≤ strip then .outside
  else if p.hasFired strip then .repeated
  else .taken

def fire (p : StripPlane α) (strip : Int) (charge : α) (crossTalk : Bool) : StripPlane α :=
  { p with
    fired := p.fired.setIfInBounds strip.toNat true
    hits := p.hits ++ [⟨strip, charge, p.stripPosition strip, crossTalk⟩] }

/-- Takes a charge unless its strip is no readable strip or has fired before. -/
def add (p : StripPlane α) (strip : Int) (charge : α) (crossTalk : Bool) :
    StripPlane α × Acceptance :=
  match p.judge strip with
  | .taken => (p.fire strip charge crossTalk, .taken)
  | refusal => (p, refusal)

def cluster (p : StripPlane α) (s : TrackerSettings α) : StripPlane α :=
  { p with clusters := formClusters s p.hits }

def clear (p : StripPlane α) : StripPlane α :=
  { p with fired := .replicate p.strips false, hits := [], clusters := [] }

end StripPlane

end ShowerTrack
