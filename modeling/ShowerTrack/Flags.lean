/-!
# Flags

The marks that block sites, clusters and hits carry, as bits of one word.
-/

set_option autoImplicit false

namespace ShowerTrack

inductive Flag where
  | glass
  | crystal
  | transition
  | innerBound
  | outerBound
  | deadNeighbor
  | split
  | leakCorrected
  | gem1Match
  | gem2Match
  | overlapMatch
  deriving DecidableEq, Repr

namespace Flag

def all : List Flag :=
  [glass, crystal, transition, innerBound, outerBound, deadNeighbor, split, leakCorrected,
    gem1Match, gem2Match, overlapMatch]

def bit : Flag → Nat
  | glass => 0
  | crystal => 1
  | transition => 2
  | innerBound => 3
  | outerBound => 4
  | deadNeighbor => 5
  | split => 6
  | leakCorrected => 7
  | gem1Match => 8
  | gem2Match => 9
  | overlapMatch => 10

end Flag

/-- A set of flags. Bits without a flag of their own are kept as they are. -/
structure Flags where
  bits : BitVec 32
  deriving DecidableEq, Repr

namespace Flags

def empty : Flags := ⟨0⟩

instance : Inhabited Flags := ⟨empty⟩

def ofNat (n : Nat) : Flags := ⟨BitVec.ofNat 32 n⟩

def toNat (f : Flags) : Nat := f.bits.toNat

def union (f g : Flags) : Flags := ⟨f.bits ||| g.bits⟩

def set (f : Flags) (b : Flag) : Flags := ⟨f.bits ||| BitVec.twoPow 32 b.bit⟩

def test (f : Flags) (b : Flag) : Bool := f.bits.getLsbD b.bit

def ofList (bs : List Flag) : Flags := bs.foldl set empty

theorem test_union (f g : Flags) (b : Flag) :
    (f.union g).test b = (f.test b || g.test b) := by
  simp [union, test]

theorem test_set (f : Flags) (b c : Flag) :
    (f.set b).test c = (f.test c || decide (b = c)) := by
  cases b <;> cases c <;> simp [set, test, Flag.bit]

end Flags

end ShowerTrack
