import ShowerTrack.Calorimeter.Block

/-!
# Shower profiles

The fraction of a shower that a block collects, by the distance between the
shower and the center of the block in block sizes. It is tabulated on the nodes
of a square grid and interpolated between them; only absolute distances count.
-/

set_option autoImplicit false

namespace ShowerTrack

structure Profile (α : Type) where
  glass : Array α
  crystal : Array α

namespace Profile

variable {α : Type} [Scalar α]

def step : α := 0.02

def range : α := 5

/-- Nodes along each axis. -/
def bins : Nat := 251

def table (p : Profile α) : BlockKind → Array α
  | .glass => p.glass
  | .crystal => p.crystal

def node (p : Profile α) (kind : BlockKind) (ix iy : Nat) : α :=
  (p.table kind).getD (ix * bins + iy) 0

/-- A table filled from one triangle and mirrored at the diagonal. -/
def tabulate (fraction : α → α → α) : Array α :=
  let nodeAt (i : Nat) : α := Scalar.ofNat i * step
  Array.ofFn fun (k : Fin (bins * bins)) =>
    let ix := k.val / bins
    let iy := k.val % bins
    Scalar.max (fraction (nodeAt (Nat.max ix iy)) (nodeAt (Nat.min ix iy))) 0

def ofFractions (fraction : BlockKind → α → α → α) : Profile α :=
  ⟨tabulate (fraction .glass), tabulate (fraction .crystal)⟩

/-- The last node that starts a cell bounds the cell of every distance. -/
def cellIndex (f : α) : Nat := Nat.min (Scalar.truncate f) (bins - 2)

def interpolate (tx ty v00 v10 v01 v11 : α) : α :=
  (1 - tx) * (1 - ty) * v00 + tx * (1 - ty) * v10 + (1 - tx) * ty * v01 + tx * ty * v11

def fraction (p : Profile α) (kind : BlockKind) (dx dy : α) : α :=
  let dx := Scalar.abs dx
  let dy := Scalar.abs dy
  if range ≤ dx ∨ range ≤ dy then 0
  else
    let fx := dx / step
    let fy := dy / step
    let ix := cellIndex fx
    let iy := cellIndex fy
    interpolate (fx - Scalar.ofNat ix) (fy - Scalar.ofNat iy)
      (p.node kind ix iy) (p.node kind (ix + 1) iy)
      (p.node kind ix (iy + 1)) (p.node kind (ix + 1) (iy + 1))

def fractionAt (p : Profile α) (b : Placement α) (x y : α) : α :=
  p.fraction b.kind ((x - b.x) / b.sizeX) ((y - b.y) / b.sizeY)

end Profile

end ShowerTrack
