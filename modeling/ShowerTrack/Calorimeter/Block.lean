import ShowerTrack.Flags
import ShowerTrack.Scalar

/-!
# Calorimeter blocks

A block has a material, a place in the calorimeter frame and a cell of the grid
of its sector. Distances between blocks are measured in units of their mean
size, so that one threshold serves both materials.
-/

set_option autoImplicit false

namespace ShowerTrack

inductive BlockKind where
  | glass
  | crystal
  deriving DecidableEq, Repr

structure Placement (α : Type) where
  kind : BlockKind
  sizeX : α
  sizeY : α
  x : α
  y : α
  z : α

structure Site where
  flags : Flags
  sector : Nat
  row : Nat
  column : Nat
  deriving DecidableEq, Repr

structure BlockHit (α : Type) where
  id : Int
  place : Placement α
  site : Site
  energy : α

variable {α : Type} [Scalar α]

/-- Normalized distance below which two blocks share a side. -/
def sideAdjacent : α := 1.3

/-- Normalized distance below which two blocks share a side or a corner. -/
def cornerAdjacent : α := 1.6

namespace Placement

instance : Inhabited (Placement α) := ⟨⟨.glass, 0, 0, 0, 0, 0⟩⟩

/-- Distance along each axis in units of the mean size. -/
def spacing (a b : Placement α) : α × α :=
  (2 * (b.x - a.x) / (a.sizeX + b.sizeX), 2 * (b.y - a.y) / (a.sizeY + b.sizeY))

def distance (a b : Placement α) : α :=
  let (dx, dy) := spacing a b
  Scalar.sqrt (dx * dx + dy * dy)

def isNumber (a : Placement α) : Bool :=
  [a.sizeX, a.sizeY, a.x, a.y].all Scalar.isNumber

/-- How near two blocks are. A distance that the coordinates leave undefined
ranks before every distance, one between places that are not numbers behind. -/
def nearness (a b : Placement α) : Nat × α :=
  let d := distance a b
  (if Scalar.isNumber d then 1 else if a.isNumber && b.isNumber then 0 else 2, d)

end Placement

def nearer (a b : Nat × α) : Bool :=
  a.1 < b.1 || (a.1 == b.1 && a.2 < b.2)

namespace Site

instance : Inhabited Site := ⟨⟨.empty, 0, 0, 0⟩⟩

def cell (s : Site) : Nat × Nat := (s.row, s.column)

end Site

namespace BlockHit

instance : Inhabited (BlockHit α) := ⟨⟨0, default, default, 0⟩⟩

def distance (a b : BlockHit α) : α := a.place.distance b.place

def nearness (a b : BlockHit α) : Nat × α := a.place.nearness b.place

def isAdjacent (corners : Bool) (a b : BlockHit α) : Bool :=
  a.distance b < if corners then cornerAdjacent else sideAdjacent

end BlockHit

def touching (corners : Bool) (as bs : List (BlockHit α)) : Bool :=
  as.any fun a => bs.any (a.isAdjacent corners)

end ShowerTrack
