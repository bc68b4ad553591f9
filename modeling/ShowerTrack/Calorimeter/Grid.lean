import Std.Data.HashSet
import ShowerTrack.Calorimeter.Sharing

/-!
# Islands on a grid

A dense grid of energies is cut into islands of connected cells by flooding. A
peak is a cell that yields to none of its eight neighbors. An island with one
peak is a cluster; one with several is shared between them.
-/

set_option autoImplicit false

namespace ShowerTrack

/-- Row and column. -/
abbrev Cell := Nat × Nat

namespace Cell

def before (a b : Cell) : Bool := a.1 < b.1 || (a.1 == b.1 && a.2 < b.2)

def rowDistance (a b : Cell) : Nat := (a.1 - b.1) + (b.1 - a.1)

def columnDistance (a b : Cell) : Nat := (a.2 - b.2) + (b.2 - a.2)

def chebyshev (a b : Cell) : Nat := Nat.max (rowDistance a b) (columnDistance a b)

def manhattan (a b : Cell) : Nat := rowDistance a b + columnDistance a b

def isNeighbor (corners : Bool) (a b : Cell) : Bool :=
  (if corners then chebyshev a b else manhattan a b) == 1

end Cell

structure Grid (α : Type) where
  rows : Nat
  columns : Nat
  values : Array α

structure GridSettings (α : Type) where
  minCellEnergy : α
  minCenterEnergy : α
  corners : Bool
  splitIterations : Nat
  leastSplit : α

structure GridCluster (α : Type) where
  cells : List (Cell × α)
  energy : α
  peak : Cell
  split : Bool

namespace Grid

variable {α : Type} [Scalar α]

def cellsOf (rows columns : Nat) : List Cell :=
  (List.range rows).flatMap fun r => (List.range columns).map fun c => (r, c)

def cells (g : Grid α) : List Cell := cellsOf g.rows g.columns

def tabulate (rows columns : Nat) (energy : Cell → α) : Grid α :=
  ⟨rows, columns, ((cellsOf rows columns).map energy).toArray⟩

def energy (g : Grid α) (c : Cell) : α := g.values.getD (c.1 * g.columns + c.2) 0

def contains (g : Grid α) (c : Cell) : Bool := c.1 < g.rows && c.2 < g.columns

def around (g : Grid α) (c : Cell) : List Cell :=
  ((cellsOf 3 3).filterMap fun (i, j) =>
    if 1 ≤ c.1 + i ∧ 1 ≤ c.2 + j then some (c.1 + i - 1, c.2 + j - 1) else none).filter
      fun d => g.contains d && d != c

/-- Moves a cell from the dry ones onto the edge of a flood, unless it is wet. -/
def wet (s : List Cell × Std.HashSet Cell) (c : Cell) : List Cell × Std.HashSet Cell :=
  if c ∈ s.2 then (c :: s.1, s.2.erase c) else s

theorem wet_size (s : List Cell × Std.HashSet Cell) (c : Cell) :
    (wet s c).1.length + (wet s c).2.size = s.1.length + s.2.size := by
  unfold wet
  split
  · rename_i h
    have hpos : 0 < s.2.size := by
      have hne : s.2.isEmpty = false := Std.HashSet.isEmpty_eq_false_iff_exists_mem.2 ⟨c, h⟩
      rw [Std.HashSet.isEmpty_eq_size_eq_zero, beq_eq_false_iff_ne] at hne
      omega
    simp only [List.length_cons, Std.HashSet.size_erase, h, if_true]
    omega
  · rfl

theorem foldl_wet_size (cells : List Cell) (s : List Cell × Std.HashSet Cell) :
    (cells.foldl wet s).1.length + (cells.foldl wet s).2.size = s.1.length + s.2.size := by
  induction cells generalizing s with
  | nil => rfl
  | cons c cells ih => rw [List.foldl_cons, ih, wet_size]

/-- Floods the dry cells from the cells on the edge, along the ways out of each. Gives the
flooded cells and those that stay dry. -/
def flood (ways : Cell → List Cell) :
    List Cell → Std.HashSet Cell → List Cell × Std.HashSet Cell
  | [], dry => ([], dry)
  | c :: edge, dry =>
    let next := (ways c).foldl wet (edge, dry)
    let (island, rest) := flood ways next.1 next.2
    (c :: island, rest)
termination_by edge dry => edge.length + dry.size
decreasing_by
  have h := foldl_wet_size (ways c) (edge, dry)
  simp only [List.length_cons] at h ⊢
  omega

/-- The islands that start at the first cell which is dry, at the next one which is still
dry, and so on. -/
def islandsFrom (ways : Cell → List Cell) : List Cell → Std.HashSet Cell → List (List Cell)
  | [], _ => []
  | c :: cells, dry =>
    if c ∈ dry then
      let (island, rest) := flood ways [c] (dry.erase c)
      island.mergeSort (fun a b => !Cell.before b a) :: islandsFrom ways cells rest
    else islandsFrom ways cells dry

/-- A cell is dry land unless it lies below the threshold. -/
def isDry (g : Grid α) (s : GridSettings α) (c : Cell) : Bool :=
  !(g.energy c < s.minCellEnergy)

def spreads (g : Grid α) (s : GridSettings α) (a b : Cell) : Bool :=
  Cell.isNeighbor s.corners a b && s.minCellEnergy ≤ g.energy b

def ways (g : Grid α) (s : GridSettings α) (c : Cell) : List Cell :=
  (g.around c).filter (g.spreads s c)

def islands (g : Grid α) (s : GridSettings α) : List (List Cell) :=
  let dry := g.cells.filter (g.isDry s)
  islandsFrom (g.ways s) dry (.ofList dry)

/-- Whether a cell yields to no neighbor; of equal ones the earlier stays. -/
def isPeak (g : Grid α) (s : GridSettings α) (c : Cell) : Bool :=
  let e := g.energy c
  !(e < s.minCenterEnergy) && (g.around c).all fun d =>
    g.energy d < e || (Scalar.same (g.energy d) e && c.before d)

def nearestPeak (peaks : List Cell) (c : Cell) : Nat :=
  ((firstLeast? (fun a b => a.1 < b.1)
    (peaks.zipIdx.map fun (p, k) => (p.chebyshev c, k))).map (·.2)).getD 0

/-- Columns run along x and rows along y. -/
def point (c : Cell) : α × α := (Scalar.ofNat c.2, Scalar.ofNat c.1)

def sharing (g : Grid α) (profile : α → α → α) (island peaks : List Cell) : Sharing α Cell :=
  { items := island
    peaks
    energy := g.energy
    position := point
    fraction := fun c x y => profile ((point c).1 - x) ((point c).2 - y)
    nearest := nearestPeak peaks
    inCore := fun peak c => peak.chebyshev c ≤ 1 }

def cluster (cells : List (Cell × α)) (peak : Cell) (split : Bool) : GridCluster α :=
  { cells, energy := Scalar.sum (cells.map (·.2)), peak, split }

def sharedCluster (g : Grid α) (s : GridSettings α) (rows : List (Cell × Array α))
    (peak : Cell) (k : Nat) : GridCluster α :=
  let kept := rows.filter fun (c, row) => c == peak || s.leastSplit ≤ row.getD k 0
  cluster (kept.map fun (c, row) => (c, g.energy c * row.getD k 0)) peak true

def split (g : Grid α) (s : GridSettings α) (profile : α → α → α) (island : List Cell) :
    List (GridCluster α) :=
  match island.filter (g.isPeak s) with
  | [] => []
  | [peak] => [cluster (island.map fun c => (c, g.energy c)) peak false]
  | peaks =>
    let rows := (g.sharing profile island peaks).shares s.splitIterations
    peaks.zipIdx.map fun (peak, k) => g.sharedCluster s rows peak k

/-- The clusters of a grid. `profile dx dy` is the fraction of a shower that a cell
at that offset from its center collects. -/
def clusters (g : Grid α) (s : GridSettings α) (profile : α → α → α) :
    List (GridCluster α) :=
  (g.islands s).flatMap (g.split s profile)

end Grid

end ShowerTrack
