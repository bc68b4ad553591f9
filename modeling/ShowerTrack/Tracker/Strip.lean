import ShowerTrack.Scalar

/-!
# Strips

A strip hit is a strip above threshold, with its charge and its place on the
plane. A strip cluster is a run of neighboring strips with what is measured on it.
-/

set_option autoImplicit false

namespace ShowerTrack

structure StripHit (α : Type) where
  strip : Int
  charge : α
  position : α
  crossTalk : Bool

structure StripCluster (α : Type) where
  position : α
  peak : α
  total : α
  crossTalk : Bool
  hits : List (StripHit α)

namespace StripCluster

variable {α : Type} [Scalar α]

def ofHits (hits : List (StripHit α)) : StripCluster α := ⟨0, 0, 0, false, hits⟩

def size (c : StripCluster α) : Nat := c.hits.length

def totalCharge (hits : List (StripHit α)) : α := Scalar.sum (hits.map (·.charge))

def peakCharge (hits : List (StripHit α)) : α := (hits.map (·.charge)).foldl Scalar.max 0

/-- The mean position weighted by charge; without charge a cluster sits at 0. -/
def meanPosition (hits : List (StripHit α)) : α :=
  let total := totalCharge hits
  if 0 < total then Scalar.sum (hits.map fun h => h.position * h.charge) / total else 0

/-- Fills in what the hits determine. -/
def measure (c : StripCluster α) : StripCluster α :=
  { c with
    position := meanPosition c.hits
    peak := peakCharge c.hits
    total := totalCharge c.hits }

def flagCrossTalk (c : StripCluster α) : StripCluster α :=
  { c with crossTalk := true, hits := c.hits.map fun h => { h with crossTalk := true } }

end StripCluster

end ShowerTrack
