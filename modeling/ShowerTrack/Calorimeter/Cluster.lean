import ShowerTrack.Calorimeter.Block

/-!
# Block clusters

The hits of one shower candidate. The energy is the running sum of the hit
energies and the center the first of the most energetic hits.
-/

set_option autoImplicit false

namespace ShowerTrack

structure BlockCluster (α : Type) where
  center : BlockHit α
  hits : List (BlockHit α)
  energy : α
  leakage : α
  flags : Flags

namespace BlockCluster

variable {α : Type} [Scalar α]

def empty : BlockCluster α := ⟨default, [], 0, 0, .empty⟩

instance : Inhabited (BlockCluster α) := ⟨empty⟩

def isEmpty (c : BlockCluster α) : Bool := c.hits.isEmpty

/-- A newcomer takes the center over from nobody or from a weaker hit. -/
def newCenter (c : BlockCluster α) (h : BlockHit α) : BlockHit α :=
  if c.isEmpty || c.center.energy < h.energy then h else c.center

def add (c : BlockCluster α) (h : BlockHit α) : BlockCluster α :=
  { c with
    center := c.newCenter h
    hits := c.hits ++ [h]
    energy := c.energy + h.energy }

def merge (c d : BlockCluster α) : BlockCluster α :=
  { center := c.newCenter d.center
    hits := c.hits ++ d.hits
    energy := c.energy + d.energy
    leakage := c.leakage + d.leakage
    flags := c.flags.union d.flags }

def single (h : BlockHit α) : BlockCluster α := empty.add h

def addAll (c : BlockCluster α) (hs : List (BlockHit α)) : BlockCluster α :=
  hs.foldl add c

def ofHits (hs : List (BlockHit α)) : BlockCluster α := empty.addAll hs

def mergeAll (cs : List (BlockCluster α)) : BlockCluster α := cs.foldl merge empty

def setFlag (c : BlockCluster α) (b : Flag) : BlockCluster α :=
  { c with flags := c.flags.set b }

def contains (c : BlockCluster α) (id : Int) : Bool := c.hits.any (·.id == id)

theorem addAll_append (c : BlockCluster α) (hs ks : List (BlockHit α)) :
    c.addAll (hs ++ ks) = (c.addAll hs).addAll ks := by
  simp [addAll]

theorem hits_addAll (c : BlockCluster α) (hs : List (BlockHit α)) :
    (c.addAll hs).hits = c.hits ++ hs := by
  induction hs generalizing c with
  | nil => simp [addAll]
  | cons h hs ih => rw [addAll, List.foldl_cons, ← addAll, ih]; simp [add]

theorem hits_ofHits (hs : List (BlockHit α)) : (ofHits hs).hits = hs := by
  simp [ofHits, hits_addAll, empty]

end BlockCluster

end ShowerTrack
