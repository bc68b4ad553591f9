import ShowerTrack.Calorimeter.Block

/-!
# Sectors

A core of crystals with a square hole for the beam is sector 0. Four lead glass
sectors surround it as a pinwheel: sector 1 lies on top, and each further one is
the sector before it turned clockwise by a quarter. Every sector keeps a grid of
its own.
-/

set_option autoImplicit false

namespace ShowerTrack

/-- Corrects the energy of a block for its nonlinear response. -/
structure Calibration (α : Type) where
  baseEnergy : α
  nonLinear : α

structure Block (α : Type) where
  id : Int
  name : String
  place : Placement α
  site : Site
  calibration : Calibration α

variable {α : Type} [Scalar α]

namespace Calibration

def none : Calibration α := ⟨0, 0⟩

instance : Inhabited (Calibration α) := ⟨none⟩

def alpha (c : Calibration α) (energy : α) : α :=
  c.nonLinear * (energy - c.baseEnergy) / 1000

end Calibration

def Block.hit (b : Block α) (energy : α) : BlockHit α := ⟨b.id, b.place, b.site, energy⟩

namespace Sectors

def count : Nat := 5

def crystalGrid : Nat := 34

def glassRows : Nat := 6

def glassColumns : Nat := 24

def shape (sector : Nat) : Nat × Nat :=
  if sector = 0 then (crystalGrid, crystalGrid) else (glassRows, glassColumns)

def kind (sector : Nat) : BlockKind := if sector = 0 then .crystal else .glass

def crystalSize : α := 20.77

def glassSize : α := 38.15

def half (n : Nat) : α := Scalar.ofNat n / 2

def nearMiddle (margin row column : Nat) : Bool :=
  [row, column].all fun i => crystalGrid / 2 ≤ i + margin && i < crystalGrid / 2 + margin

def isBeamHole (row column : Nat) : Bool := nearMiddle 1 row column

def crystalFlags (row column : Nat) : Flags :=
  let edge := crystalGrid - 1
  .ofList ([.crystal] ++
    (if row = 0 ∨ column = 0 ∨ row = edge ∨ column = edge then [.transition] else []) ++
    (if nearMiddle 2 row column then [.innerBound] else []))

def crystal (row column : Nat) : Block α :=
  let index := row * crystalGrid + column + 1
  let middle : α := half crystalGrid - 0.5
  { id := 1000 + index
    name := "W" ++ toString index
    place :=
      { kind := .crystal
        sizeX := crystalSize
        sizeY := crystalSize
        x := (Scalar.ofNat column - middle) * crystalSize
        y := (middle - Scalar.ofNat row) * crystalSize
        z := 0 }
    site := ⟨crystalFlags row column, 0, row, column⟩
    calibration := .none }

/-- A quarter turn, clockwise. -/
def turn (p : α × α) : α × α := (p.2, -p.1)

def turns : Nat → α × α → α × α
  | 0, p => p
  | n + 1, p => turns n (turn p)

def glassFlags (row column : Nat) : Flags :=
  .ofList ([.glass] ++
    (if row = 0 ∨ column = 0 then [.outerBound] else []) ++
    (if row = glassRows - 1 ∧ glassRows ≤ column then [.transition] else []))

def glassBlock (sector row column : Nat) : Block α :=
  let index := ((sector - 1) * glassRows + row) * glassColumns + column + 1
  let outer : α := half crystalGrid * crystalSize + Scalar.ofNat glassRows * glassSize
  let (x, y) := turns (sector - 1)
    (-outer + (Scalar.ofNat column + 0.5) * glassSize,
      outer - (Scalar.ofNat row + 0.5) * glassSize)
  { id := index
    name := "G" ++ toString index
    place := { kind := .glass, sizeX := glassSize, sizeY := glassSize, x, y, z := 0 }
    site := ⟨glassFlags row column, sector, row, column⟩
    calibration := .none }

def cells (rows columns : Nat) : List (Nat × Nat) :=
  (List.range rows).flatMap fun r => (List.range columns).map fun c => (r, c)

def crystals : List (Block α) :=
  ((cells crystalGrid crystalGrid).filter fun (r, c) => !isBeamHole r c).map
    fun (r, c) => crystal r c

def glassSector (sector : Nat) : List (Block α) :=
  (cells glassRows glassColumns).map fun (r, c) => glassBlock sector r c

def blocks : List (Block α) :=
  ((List.range (count - 1)).flatMap fun s => glassSector (s + 1)) ++ crystals

end Sectors

end ShowerTrack
