import ShowerTrack.Calorimeter.Primex
import ShowerTrack.Proofs.Columns
import ShowerTrack.Proofs.Islands
import ShowerTrack.Proofs.Keyed
import ShowerTrack.Proofs.Order

/-!
# Painted grids

A painted grid holds the energy of every hit in its cell and nothing elsewhere. Where the
energies are positive and the threshold is, its islands are the components of the hits above the
threshold.
-/

set_option autoImplicit false

namespace ShowerTrack

namespace Grid

theorem length_cellsOf (rows columns : Nat) : (cellsOf rows columns).length = rows * columns := by
  simp [cellsOf, List.length_flatMap, List.map_const']

theorem mem_cellsOf {rows columns : Nat} {c : Cell} :
    c ∈ cellsOf rows columns ↔ c.1 < rows ∧ c.2 < columns := by
  simp only [cellsOf, List.mem_flatMap, List.mem_map, List.mem_range]
  constructor
  · rintro ⟨r, hr, k, hk, rfl⟩
    exact ⟨hr, hk⟩
  · intro h
    exact ⟨c.1, h.1, c.2, h.2, rfl⟩

theorem getElem?_cellsOf {rows columns : Nat} {c : Cell} (h : c.1 < rows ∧ c.2 < columns) :
    (cellsOf rows columns)[c.1 * columns + c.2]? = some c := by
  induction rows with
  | zero => omega
  | succ rows ih =>
    have hsucc : cellsOf (rows + 1) columns =
        cellsOf rows columns ++ (List.range columns).map fun k => (rows, k) := by
      simp [cellsOf, List.range_succ]
    rw [hsucc]
    by_cases hlast : c.1 = rows
    · have hlength : c.1 * columns + c.2 = (cellsOf rows columns).length + c.2 := by
        rw [length_cellsOf, hlast]
      rw [hlength, List.getElem?_append_right (Nat.le_add_right _ _), Nat.add_sub_cancel_left,
        List.getElem?_map, List.getElem?_range h.2, Option.map_some, ← hlast]
    · have hbefore : c.1 < rows := by omega
      have hbound : c.1 * columns + c.2 < (cellsOf rows columns).length := by
        rw [length_cellsOf]
        calc c.1 * columns + c.2 < c.1 * columns + columns := by omega
          _ = (c.1 + 1) * columns := by ring
          _ ≤ rows * columns := Nat.mul_le_mul_right _ hbefore
      rw [List.getElem?_append_left hbound]
      exact ih ⟨hbefore, h.2⟩

section Neighbors

variable {α : Type}

theorem mem_cells {g : Grid α} {c : Cell} : c ∈ g.cells ↔ g.contains c = true := by
  rw [cells, mem_cellsOf, contains, Bool.and_eq_true, decide_eq_true_eq, decide_eq_true_eq]

/-- The cells around a cell are its neighbors by side or corner. -/
theorem mem_around {g : Grid α} {c d : Cell} :
    d ∈ g.around c ↔ g.contains d = true ∧ Cell.isNeighbor true c d = true := by
  rw [around, List.mem_filter, List.mem_filterMap, Bool.and_eq_true, bne_iff_ne,
    Cell.isNeighbor_iff]
  constructor
  · rintro ⟨⟨⟨i, j⟩, hij, hd⟩, hcontains, hne⟩
    rw [mem_cellsOf] at hij
    simp only [Option.ite_none_right_eq_some, Option.some.injEq] at hij hd
    obtain ⟨hfits, rfl⟩ := hd
    refine ⟨hcontains, ?_⟩
    simp only [ne_eq, Prod.ext_iff, reduceCtorEq, false_implies, and_true] at hne ⊢
    omega
  · rintro ⟨hcontains, hne, hnear⟩
    refine ⟨⟨(d.1 + 1 - c.1, d.2 + 1 - c.2), ?_, ?_⟩, hcontains, ?_⟩
    · rw [mem_cellsOf]
      simp only
      omega
    · simp only
      rw [if_pos (by omega), Option.some.injEq, Prod.ext_iff]
      simp only
      omega
    · rw [ne_eq, Prod.ext_iff]
      omega

variable [Scalar α]

theorem mem_ways {g : Grid α} {s : GridSettings α} {c d : Cell} :
    d ∈ g.ways s c ↔ g.contains d = true ∧ Cell.isNeighbor s.corners c d = true ∧
      s.minCellEnergy ≤ g.energy d := by
  rw [ways, List.mem_filter, mem_around, spreads, Bool.and_eq_true, decide_eq_true_eq, and_assoc]
  have hwider : Cell.isNeighbor s.corners c d = true → Cell.isNeighbor true c d = true := by
    rw [Cell.isNeighbor_iff, Cell.isNeighbor_iff]
    simp only [reduceCtorEq, false_implies, and_true]
    omega
  constructor
  · rintro ⟨hcontains, _, hcorners, hdry⟩
    exact ⟨hcontains, hcorners, hdry⟩
  · rintro ⟨hcontains, hcorners, hdry⟩
    exact ⟨hcontains, hwider hcorners, hcorners, hdry⟩

/-- The islands of a grid without doubtful cells are the components of its dry cells. -/
theorem islands_neighbors (g : Grid α) (s : GridSettings α)
    (hnumbers : ∀ c ∈ g.cells, g.isDry s c = true → s.minCellEnergy ≤ g.energy c) :
    IsComponents (fun a b => Cell.isNeighbor s.corners a b = true)
      (g.cells.filter (g.isDry s)) (g.islands s) := by
  apply g.islands_components s
  · intro a b hab
    rwa [Cell.isNeighbor_comm]
  · intro a _ b hb
    obtain ⟨hcell, hdry⟩ := List.mem_filter.mp hb
    rw [mem_ways]
    constructor
    · exact fun h => h.2.1
    · exact fun h => ⟨mem_cells.mp hcell, h, hnumbers b hcell hdry⟩

theorem energy_tabulate {rows columns : Nat} {c : Cell} (h : c.1 < rows ∧ c.2 < columns)
    (f : Cell → α) : (tabulate rows columns f).energy c = f c := by
  simp only [tabulate, energy, Array.getD_eq_getD_getElem?, List.getElem?_toArray,
    List.getElem?_map, getElem?_cellsOf h, Option.map_some, Option.getD_some]

end Neighbors

end Grid

namespace Primex

variable {α : Type} {shape : Nat × Nat} {hits : List (BlockHit α)}

structure Placed (shape : Nat × Nat) (hits : List (BlockHit α)) : Prop where
  cells : (hits.map (·.site.cell)).Nodup
  inside : ∀ hit ∈ hits, hit.site.row < shape.1 ∧ hit.site.column < shape.2

theorem hitAt?_cell (hn : (hits.map (·.site.cell)).Nodup) {hit : BlockHit α} (h : hit ∈ hits) :
    hitAt? hits hit.site.cell = some hit := by
  rw [hitAt?, ← List.head?_filter, List.filter_reverse,
    filter_key_eq hn h]
  rfl

theorem hitAt?_some {cell : Cell} {hit : BlockHit α} (h : hitAt? hits cell = some hit) :
    hit ∈ hits ∧ hit.site.cell = cell := by
  have hfound := List.find?_some h
  rw [beq_iff_eq] at hfound
  exact ⟨List.mem_reverse.mp (List.mem_of_find?_eq_some h), hfound⟩

theorem onGrid_eq (h : ∀ hit ∈ hits, hit.site.row < shape.1 ∧ hit.site.column < shape.2) :
    onGrid shape hits = hits := by
  rw [onGrid, List.filter_eq_self]
  intro hit hh
  simpa using h hit hh

variable [Scalar α]

theorem energy_paint_free {cell : Cell} (hcell : cell.1 < shape.1 ∧ cell.2 < shape.2)
    (hfree : ∀ hit ∈ hits, hit.site.cell ≠ cell) : (paint shape hits).energy cell = 0 := by
  have hnone : hits.filter (·.site.cell == cell) = [] := by
    rw [List.filter_eq_nil_iff]
    intro hit hh
    simpa using hfree hit hh
  rw [paint, Grid.energy_tabulate hcell, hnone]
  rfl

variable [Scalar.Ordered α]

theorem energy_paint (h : Placed shape hits) {hit : BlockHit α} (hh : hit ∈ hits)
    (hpos : 0 < hit.energy) : (paint shape hits).energy hit.site.cell = hit.energy := by
  have hone := filter_key_eq h.cells hh
  rw [paint, Grid.energy_tabulate (h.inside hit hh), hone]
  exact Scalar.Ordered.zero_add hpos

/-- The energy in a cell is that of a hit above zero, or zero. -/
theorem energy_paint_cases (h : Placed shape hits) (hpos : ∀ hit ∈ hits, 0 < hit.energy)
    {cell : Cell} (hcell : cell.1 < shape.1 ∧ cell.2 < shape.2) :
    (∃ hit ∈ hits, hit.site.cell = cell ∧ (paint shape hits).energy cell = hit.energy) ∨
      ((∀ hit ∈ hits, hit.site.cell ≠ cell) ∧ (paint shape hits).energy cell = 0) := by
  by_cases hfree : ∀ hit ∈ hits, hit.site.cell ≠ cell
  · exact .inr ⟨hfree, energy_paint_free hcell hfree⟩
  · push Not at hfree
    obtain ⟨hit, hh, rfl⟩ := hfree
    exact .inl ⟨hit, hh, rfl, energy_paint h hh (hpos hit hh)⟩

def live (s : CaloSettings α) (hits : List (BlockHit α)) : List (BlockHit α) :=
  hits.filter fun hit => s.minBlockEnergy ≤ hit.energy

section Thresholds

variable {s : CaloSettings α} (h : Placed shape hits) (hpos : ∀ hit ∈ hits, 0 < hit.energy)
  (hmin : 0 < s.minBlockEnergy)

include h hpos hmin

theorem isDry_paint {cell : Cell} (hcell : cell.1 < shape.1 ∧ cell.2 < shape.2) :
    (paint shape hits).isDry (gridSettings s) cell = true ↔
      ∃ hit ∈ live s hits, hit.site.cell = cell := by
  rw [Grid.isDry, Bool.not_eq_true', decide_eq_false_iff_not, gridSettings]
  rcases energy_paint_cases h hpos hcell with ⟨hit, hh, rfl, henergy⟩ | ⟨hfree, henergy⟩
  · rw [henergy]
    constructor
    · intro hdry
      have hle := Scalar.Ordered.le_of_not_lt (Scalar.Ordered.number_of_lt (hpos hit hh))
        (Scalar.Ordered.number_of_lt hmin) hdry
      exact ⟨hit, List.mem_filter.mpr ⟨hh, decide_eq_true hle⟩, rfl⟩
    · rintro ⟨other, hother, hcells⟩
      obtain ⟨hother, hle⟩ := List.mem_filter.mp hother
      obtain rfl := List.inj_on_of_nodup_map h.cells hother hh hcells
      exact Scalar.Ordered.not_lt_of_le (of_decide_eq_true hle)
  · rw [henergy]
    constructor
    · intro hdry
      exact absurd hmin hdry
    · rintro ⟨hit, hh, hcells⟩
      exact absurd hcells (hfree hit (List.mem_of_mem_filter hh))

theorem le_energy_of_isDry {cell : Cell} (hcell : cell.1 < shape.1 ∧ cell.2 < shape.2)
    (hdry : (paint shape hits).isDry (gridSettings s) cell = true) :
    s.minBlockEnergy ≤ (paint shape hits).energy cell := by
  obtain ⟨hit, hh, rfl⟩ := (isDry_paint h hpos hmin hcell).mp hdry
  obtain ⟨hh, hle⟩ := List.mem_filter.mp hh
  rw [energy_paint h hh (hpos hit hh)]
  exact of_decide_eq_true hle

/-- The dry cells of a painted grid are those of the hits above the threshold. -/
theorem dry_perm : ((paint shape hits).cells.filter
    ((paint shape hits).isDry (gridSettings s))).Perm ((live s hits).map (·.site.cell)) := by
  have hlive : ((live s hits).map (·.site.cell)).Nodup :=
    h.cells.sublist (List.filter_sublist.map _)
  have hdry : ((paint shape hits).cells.filter
      ((paint shape hits).isDry (gridSettings s))).Nodup := (Grid.nodup_cellsOf _ _).filter _
  rw [List.perm_ext_iff_of_nodup hdry hlive]
  intro cell
  rw [List.mem_filter, Grid.cells, Grid.mem_cellsOf, List.mem_map]
  constructor
  · rintro ⟨hcell, hdry⟩
    exact (isDry_paint h hpos hmin hcell).mp hdry
  · rintro ⟨hit, hh, rfl⟩
    have hcell := h.inside hit (List.mem_of_mem_filter hh)
    exact ⟨hcell, (isDry_paint h hpos hmin hcell).mpr ⟨hit, hh, rfl⟩⟩

theorem islands_paint : IsComponents (fun a b => Cell.isNeighbor s.corners a b = true)
    ((live s hits).map (·.site.cell)) ((paint shape hits).islands (gridSettings s)) := by
  have hislands := (paint shape hits).islands_neighbors (gridSettings s) (by
    intro cell hcell hdry
    exact le_energy_of_isDry h hpos hmin (Grid.mem_cellsOf.mp hcell) hdry)
  exact hislands.of_perm (dry_perm h hpos hmin)

/-- The islands of a painted grid are the cells of the groups of its hits. -/
theorem exists_islands : ∃ matched,
    matched.Perm ((paint shape hits).islands (gridSettings s)) ∧
      List.Forall₂ (fun group island => (group.map (·.site.cell)).Perm island)
        (Island.sectorGroups s.corners (live s hits)) matched := by
  have hlive : ((live s hits).map (·.site.cell)).Nodup :=
    h.cells.sublist (List.filter_sublist.map _)
  have hgroups := (Island.sectorGroups_components s.corners hlive).map
    (f := fun hit : BlockHit α => hit.site.cell)
    (R := fun a b => Cell.isNeighbor s.corners a b = true) fun _ _ _ _ => Iff.rfl
  obtain ⟨matched, hperm, hmatched⟩ := hgroups.exists_perm hlive (islands_paint h hpos hmin)
  exact ⟨matched, hperm, List.forall₂_map_left_iff.mp hmatched⟩

/-- Hits in a row of neighboring cells are one island. -/
theorem islands_of_isChain (cells : List Cell) (hcells : (live s hits).map (·.site.cell) = cells)
    (hne : cells ≠ []) (hchain : cells.IsChain fun a b => Cell.isNeighbor s.corners a b = true)
    (hsorted : cells.Pairwise fun a b => Cell.before a b = true) :
    (paint shape hits).islands (gridSettings s) = [cells] := by
  have hn : cells.Nodup := by
    rw [← hcells]
    exact h.cells.sublist (List.filter_sublist.map _)
  have hislands := hcells ▸ islands_paint h hpos hmin
  obtain ⟨island, hone, hperm⟩ := hislands.eq_singleton hn hne (joined_of_isChain hchain)
  have hisland := (paint shape hits).islands_sorted (gridSettings s) island
    (hone ▸ List.mem_singleton_self island)
  have hcells : cells.Pairwise fun a b => (!Cell.before b a) = true := by
    apply hsorted.imp
    intro a b hab
    simp only [Bool.not_eq_true', ← Bool.not_eq_true, Cell.before_iff] at hab ⊢
    omega
  rw [hone, hperm.eq_of_pairwise _ hisland hcells]
  intro a b _ _ hab hba
  simp only [Bool.not_eq_true', ← Bool.not_eq_true, Cell.before_iff] at hab hba
  exact Prod.ext (by omega) (by omega)

end Thresholds

end Primex

end ShowerTrack
