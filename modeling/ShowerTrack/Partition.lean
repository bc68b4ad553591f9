/-!
# Partitions

A forest of disjoint sets over the indices below a bound. Every index points to
itself or to a smaller index, so a walk to the root ends, and the root of a class
is its smallest member.
-/

set_option autoImplicit false

namespace ShowerTrack

structure Partition where
  parent : Array Nat
  deriving DecidableEq, Repr

namespace Partition

def discrete (n : Nat) : Partition := ⟨Array.range n⟩

def size (p : Partition) : Nat := p.parent.size

/-- The index that `i` points to; an index beyond the bound points to itself. -/
def next (p : Partition) (i : Nat) : Nat := p.parent.getD i i

def root (p : Partition) (i : Nat) : Nat :=
  if p.next i < i then root p (p.next i) else i
termination_by i

/-- Points every index on the walk from `i` to the root straight at the root. -/
def compress (p : Partition) (i r : Nat) : Partition :=
  if p.next i < i then
    compress ⟨p.parent.setIfInBounds i r⟩ (p.next i) r
  else p
termination_by i

def find (p : Partition) (i : Nat) : Nat × Partition :=
  (p.root i, p.compress i (p.root i))

/-- Joins two classes under the smaller of their roots. -/
def union (p : Partition) (a b : Nat) : Partition :=
  let (ra, p) := p.find a
  let (rb, p) := p.find b
  if ra = rb then p
  else if ra < rb then ⟨p.parent.setIfInBounds rb ra⟩
  else ⟨p.parent.setIfInBounds ra rb⟩

def find? (p : Partition) (i : Nat) : Option (Nat × Partition) :=
  if i < p.size then some (p.find i) else none

def union? (p : Partition) (a b : Nat) : Option Partition :=
  if a < p.size ∧ b < p.size then some (p.union a b) else none

def members (p : Partition) (r : Nat) : List Nat :=
  (List.range p.size).filter fun i => p.root i == r

/-- Puts indices into the places of their roots, each in front of those there. -/
def collect (p : Partition) (indices : List Nat) : Array (List Nat) :=
  indices.foldr (fun i places => places.modify (p.root i) (i :: ·)) (Array.replicate p.size [])

/-- The classes in the order of their first members, each in ascending order. -/
def groups (p : Partition) : List (List Nat) :=
  (p.collect (List.range p.size)).toList.filter (!·.isEmpty)

theorem size_collect (p : Partition) (indices : List Nat) :
    (p.collect indices).size = p.size := by
  induction indices with
  | nil => simp [collect]
  | cons i indices ih => simpa [collect] using ih

theorem getElem_collect (p : Partition) (indices : List Nat) (r : Nat)
    (h : r < (p.collect indices).size) :
    (p.collect indices)[r] = indices.filter fun i => p.root i == r := by
  induction indices with
  | nil => simp [collect]
  | cons i indices ih =>
    have hr : r < (p.collect indices).size := by rw [size_collect] at h ⊢; exact h
    have step : p.collect (i :: indices) =
        (p.collect indices).modify (p.root i) (i :: ·) := rfl
    simp only [step, Array.getElem_modify, ih hr, List.filter_cons, beq_iff_eq]

theorem groups_eq (p : Partition) :
    p.groups = ((List.range p.size).map p.members).filter (!·.isEmpty) := by
  have h : (p.collect (List.range p.size)).toList = (List.range p.size).map p.members := by
    apply List.ext_getElem
    · simp [size_collect]
    · intro r h₁ h₂
      simp [getElem_collect, members]
  rw [groups, h]

def unionAll (p : Partition) (pairs : List (Nat × Nat)) : Partition :=
  pairs.foldl (fun p (a, b) => p.union a b) p

theorem unionAll_append (p : Partition) (xs ys : List (Nat × Nat)) :
    p.unionAll (xs ++ ys) = (p.unionAll xs).unionAll ys := by
  simp [unionAll]

end Partition

/-- The pairs of positions `i < j` whose entries are related. Nothing is looked for
beyond the first entry that is out of reach. -/
def relatedPairs {β : Type} (inReach related : β → β → Bool) :
    List (β × Nat) → List (Nat × Nat)
  | [] => []
  | (a, i) :: rest =>
    ((rest.takeWhile fun (b, _) => inReach a b).filter fun (b, _) => related a b).map
        (fun (_, j) => (i, j)) ++
      relatedPairs inReach related rest

/-- A list cut into the classes that the found pairs generate, each class in list
order and the classes in the order of their first members. -/
def connectedWithin {β : Type} (inReach related : β → β → Bool) (items : List β) :
    List (List β) :=
  let pairs := relatedPairs inReach related items.zipIdx
  ((Partition.discrete items.length).unionAll pairs).groups.map
    fun members => members.filterMap (items[·]?)

def connected {β : Type} (related : β → β → Bool) (items : List β) : List (List β) :=
  connectedWithin (fun _ _ => true) related items

end ShowerTrack
