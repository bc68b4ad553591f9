import ShowerTrack.Matching
import ShowerTrack.Tracker.Pedestal

/-!
# Events

What is read from the detectors in one event, and what is made of it.
-/

set_option autoImplicit false

namespace ShowerTrack

structure BlockEnergy (α : Type) where
  id : Int
  energy : α

structure StripSamples (α : Type) where
  key : StripKey
  samples : List α

structure RawEvent (α : Type) where
  number : Nat
  blocks : List (BlockEnergy α)
  strips : List (StripSamples α)

/-- Clusters and hits that found no room in an event. -/
structure Overflow where
  hyCal : Nat
  gem1 : Nat
  gem2 : Nat
  deriving DecidableEq, Repr

def Overflow.total (o : Overflow) : Nat := o.hyCal + o.gem1 + o.gem2

/-- A reconstructed event, in the frame of the beam line. -/
structure Event (α : Type) where
  number : Nat
  caloHits : List (CaloHit α)
  gem1Hits : List (TrackerHit α)
  gem2Hits : List (TrackerHit α)
  matched : List Match
  overflow : Overflow

end ShowerTrack
