import ShowerTrack.Proofs.Checked.Island
import ShowerTrack.Proofs.Painted

/-!
# Checked grids

A cell is read or painted if it lies on the grid: the cells around a cell are cut off at the
border, the cells of islands come from the grid, and hits beyond the border are left out before
they are painted.
-/

set_option autoImplicit false

namespace ShowerTrack

def Grid.Dense {α : Type} (g : Grid α) : Prop := g.values.size = g.rows * g.columns

namespace Checked

variable {α : Type} [Scalar α]

section Flood

def energyAt (g : Grid α) (c : Cell) : Option α :=
  if g.contains c then g.values[c.1 * g.columns + c.2]? else none

def spreads (g : Grid α) (s : GridSettings α) (a b : Cell) : Option Bool := do
  let e ← energyAt g b
  some (Cell.isNeighbor s.corners a b && s.minCellEnergy ≤ e)

def ways (g : Grid α) (s : GridSettings α) (c : Cell) : Option (List Cell) :=
  keep (spreads g s c) (g.around c)

def isDry (g : Grid α) (s : GridSettings α) (c : Cell) : Option Bool := do
  let e ← energyAt g c
  some !(e < s.minCellEnergy)

def flood (ways : Cell → Option (List Cell)) :
    List Cell → Std.HashSet Cell → Option (List Cell × Std.HashSet Cell)
  | [], dry => some ([], dry)
  | c :: edge, dry =>
    match ways c with
    | none => none
    | some cells =>
      let next := cells.foldl Grid.wet (edge, dry)
      (flood ways next.1 next.2).map fun (island, rest) => (c :: island, rest)
termination_by edge dry => edge.length + dry.size
decreasing_by
  have h := Grid.foldl_wet_size cells (edge, dry)
  simp only [List.length_cons] at h ⊢
  omega

def islandsFrom (ways : Cell → Option (List Cell)) :
    List Cell → Std.HashSet Cell → Option (List (List Cell))
  | [], _ => some []
  | c :: cells, dry =>
    if c ∈ dry then do
      let (island, rest) ← flood ways [c] (dry.erase c)
      let islands ← islandsFrom ways cells rest
      some (island.mergeSort (fun a b => !Cell.before b a) :: islands)
    else islandsFrom ways cells dry

def islands (g : Grid α) (s : GridSettings α) : Option (List (List Cell)) := do
  let dry ← keep (isDry g s) g.cells
  islandsFrom (ways g s) dry (.ofList dry)

theorem flood_eq {ways : Cell → Option (List Cell)} {ways' : Cell → List Cell}
    (h : ∀ c, ways c = some (ways' c)) (edge : List Cell) (dry : Std.HashSet Cell) :
    flood ways edge dry = some (Grid.flood ways' edge dry) := by
  induction edge, dry using Grid.flood.induct ways' with
  | case1 dry => rw [flood, Grid.flood]
  | case2 c edge dry next island rest _ ih =>
    rw [flood, h c, Grid.flood]
    exact congrArg (Option.map fun result => (c :: result.1, result.2)) ih

theorem islandsFrom_eq {ways : Cell → Option (List Cell)} {ways' : Cell → List Cell}
    (h : ∀ c, ways c = some (ways' c)) (cells : List Cell) (dry : Std.HashSet Cell) :
    islandsFrom ways cells dry = some (Grid.islandsFrom ways' cells dry) := by
  induction cells generalizing dry with
  | nil => rfl
  | cons c cells ih =>
    rw [islandsFrom, Grid.islandsFrom]
    split
    · rw [flood_eq h]
      simp only [Option.bind_eq_bind, Option.bind_some, ih]
    · exact ih dry

variable {g : Grid α} (hg : g.Dense)

include hg

theorem energyAt_eq {c : Cell} (hc : g.contains c = true) : energyAt g c = some (g.energy c) := by
  obtain ⟨hr, hk⟩ : c.1 < g.rows ∧ c.2 < g.columns := by simpa [Grid.contains] using hc
  have hbound : c.1 * g.columns + c.2 < g.values.size := hg.symm ▸ flat_lt hr hk
  rw [energyAt, if_pos hc, Grid.energy]
  simp [hbound]

theorem ways_eq (s : GridSettings α) (c : Cell) : ways g s c = some (g.ways s c) := by
  apply keep_eq
  intro d hd
  rw [spreads, energyAt_eq hg (Grid.mem_around.mp hd).1]
  rfl

theorem islands_eq (s : GridSettings α) : islands g s = some (g.islands s) := by
  have hdry : keep (isDry g s) g.cells = some (g.cells.filter (g.isDry s)) := by
    apply keep_eq
    intro c hc
    rw [isDry, energyAt_eq hg (Grid.mem_cells.mp hc)]
    rfl
  rw [islands, hdry]
  exact islandsFrom_eq (ways_eq hg s) _ _

end Flood

section Clusters

def outshines (g : Grid α) (c : Cell) (e : α) (d : Cell) : Option Bool := do
  let other ← energyAt g d
  some (other < e || (Scalar.same other e && c.before d))

def isPeak (g : Grid α) (s : GridSettings α) (c : Cell) : Option Bool := do
  let e ← energyAt g c
  let around ← (g.around c).mapM (outshines g c e)
  some (!(e < s.minCenterEnergy) && around.all id)

def gridSharing (g : Grid α) (profile : α → α → Option α) (island peaks : List Cell) :
    Sharing α Cell :=
  { items := island
    peaks
    energy := energyAt g
    position := Grid.point
    fraction := fun c x y => profile ((Grid.point c).1 - x) ((Grid.point c).2 - y)
    nearest := fun c => some (Grid.nearestPeak peaks c)
    inCore := fun peak c => peak.chebyshev c ≤ 1 }

def measuredCell (g : Grid α) (c : Cell) : Option (Cell × α) := do
  let e ← energyAt g c
  some (c, e)

def sharedCell (g : Grid α) (shares : Array (Array α)) (k : Nat) (x : Cell × Nat) :
    Option (Cell × α × α) := do
  let share ← shareAt shares x.2 k
  let e ← energyAt g x.1
  some (x.1, share, e * share)

/-- The cluster of peak `x.1`, which is number `x.2`. -/
def sharedIsland (g : Grid α) (s : GridSettings α) (island : List Cell)
    (shares : Array (Array α)) (x : Cell × Nat) : Option (GridCluster α) := do
  let cells ← island.zipIdx.mapM (sharedCell g shares x.2)
  let kept := cells.filter fun c => c.1 == x.1 || s.leastSplit ≤ c.2.1
  some (Grid.cluster (kept.map fun c => (c.1, c.2.2)) x.1 true)

def splitIsland (g : Grid α) (s : GridSettings α) (profile : α → α → Option α)
    (island : List Cell) : Option (List (GridCluster α)) := do
  let peaks ← keep (isPeak g s) island
  match peaks with
  | [] => some []
  | [_] =>
    let peak ← peaks[0]?
    let cells ← island.mapM (measuredCell g)
    some [Grid.cluster cells peak false]
  | _ =>
    let shares ← (gridSharing g profile island peaks).shares s.splitIterations
    peaks.zipIdx.mapM (sharedIsland g s island shares)

def gridClusters (g : Grid α) (s : GridSettings α) (profile : α → α → Option α) :
    Option (List (GridCluster α)) := do
  let islands ← islands g s
  let clusters ← islands.mapM (splitIsland g s profile)
  some clusters.flatten

variable {g : Grid α} (hg : g.Dense)

include hg

theorem isPeak_eq (s : GridSettings α) {c : Cell} (hc : g.contains c = true) :
    isPeak g s c = some (g.isPeak s c) := by
  have haround : (g.around c).mapM (outshines g c (g.energy c)) =
      some ((g.around c).map fun d => decide (g.energy d < g.energy c) ||
        (Scalar.same (g.energy d) (g.energy c) && c.before d)) := by
    apply mapM_eq
    intro d hd
    rw [outshines, energyAt_eq hg (Grid.mem_around.mp hd).1]
    rfl
  rw [isPeak, energyAt_eq hg hc]
  simp only [Option.bind_eq_bind, Option.bind_some, haround, Grid.isPeak, List.all_map]
  rfl

variable {island : List Cell} (hisland : ∀ c ∈ island, g.contains c = true)

include hisland

theorem finds_gridSharing {profile : α → α → Option α} {profile' : α → α → α}
    (hprofile : ∀ dx dy, profile dx dy = some (profile' dx dy)) {peaks : List Cell}
    (hpeaks : ∀ c ∈ peaks, c ∈ island) (hne : peaks ≠ []) :
    (gridSharing g profile island peaks).Finds (g.sharing profile' island peaks) where
  items := rfl
  peaks := rfl
  position := rfl
  inCore := rfl
  itemEnergy c hc := energyAt_eq hg (hisland c hc)
  peakEnergy c hc := energyAt_eq hg (hisland c (hpeaks c hc))
  fraction _ _ _ _ := hprofile _ _
  nearest c _ := by
    refine ⟨rfl, ?_⟩
    have hbound := firstLeast?_number_lt (fun a b => decide (a.1 < b.1))
      (fun peak : Cell => peak.chebyshev c) hne
    exact hbound

theorem sharedIsland_eq (s : GridSettings α) {row : Cell → Array α} {n : Nat}
    (hrow : ∀ c, (row c).size = n) {x : Cell × Nat} (hx : x.2 < n) :
    sharedIsland g s island (island.map row).toArray x =
      some (g.sharedCluster s (island.map fun c => (c, row c)) x.1 x.2) := by
  have hcells : island.zipIdx.mapM (sharedCell g (island.map row).toArray x.2) =
      some (island.zipIdx.map fun y => (y.1, (row y.1).getD x.2 0,
        g.energy y.1 * (row y.1).getD x.2 0)) := by
    apply mapM_eq
    intro y hy
    have hitem := List.mem_zipIdx_iff_getElem?.mp hy
    rw [sharedCell, shareAt_eq hrow hitem hx,
      energyAt_eq hg (hisland y.1 (List.mem_of_getElem? hitem))]
    rfl
  have hzip : (island.zipIdx.map fun y => (y.1, (row y.1).getD x.2 0,
      g.energy y.1 * (row y.1).getD x.2 0)) = island.map fun c =>
        (c, (row c).getD x.2 0, g.energy c * (row c).getD x.2 0) := by
    conv_rhs => rw [← List.zipIdx_map_fst 0 island, List.map_map]
    rfl
  rw [sharedIsland, hcells, hzip]
  simp [Grid.sharedCluster, List.filter_map, Function.comp_def]

theorem splitIsland_eq (s : GridSettings α) {profile : α → α → Option α} {profile' : α → α → α}
    (hprofile : ∀ dx dy, profile dx dy = some (profile' dx dy)) :
    splitIsland g s profile island = some (g.split s profile' island) := by
  have hpeaks := keep_eq fun c hc => isPeak_eq hg s (hisland c hc)
  simp only [splitIsland, hpeaks, Option.bind_eq_bind, Option.bind_some, Grid.split]
  match hfilter : island.filter (g.isPeak s) with
  | [] => rfl
  | [peak] =>
    have hcells : island.mapM (measuredCell g) = some (island.map fun c => (c, g.energy c)) := by
      apply mapM_eq
      intro c hc
      rw [measuredCell, energyAt_eq hg (hisland c hc)]
      rfl
    simp only [hcells]
    rfl
  | c :: d :: rest =>
    have hmem : ∀ peak ∈ c :: d :: rest, peak ∈ island := by
      intro peak hpeak
      exact List.mem_of_mem_filter (hfilter ▸ hpeak)
    obtain ⟨centers, hcenters, hrows⟩ :=
      Sharing.exists_shares (g.sharing profile' island (c :: d :: rest)) s.splitIterations
    have hshares := (finds_gridSharing hg hisland hprofile hmem (List.cons_ne_nil c _)).shares_eq
      s.splitIterations
    rw [hrows, ShowerTrack.Sharing.rows, List.map_map] at hshares
    change ((gridSharing g profile island (c :: d :: rest)).shares s.splitIterations).bind _ = _
    rw [hshares, Option.bind_some]
    change (c :: d :: rest).zipIdx.mapM _ = some ((c :: d :: rest).zipIdx.map _)
    rw [hrows]
    apply mapM_eq
    intro x hx
    exact sharedIsland_eq hg hisland s (Sharing.size_row hcenters) (List.mem_zipIdx' hx).1

end Clusters

theorem gridClusters_eq {g : Grid α} (hg : g.Dense) (s : GridSettings α)
    {profile : α → α → Option α} {profile' : α → α → α}
    (hprofile : ∀ dx dy, profile dx dy = some (profile' dx dy)) :
    gridClusters g s profile = some (g.clusters s profile') := by
  have hcells : ∀ island ∈ g.islands s, ∀ c ∈ island, g.contains c = true := by
    intro island hisland c hc
    have hmem := (g.flatten_islands_perm s).mem_iff.mp (List.mem_flatten_of_mem hisland hc)
    exact Grid.mem_cells.mp (List.mem_of_mem_filter hmem)
  have hclusters := mapM_eq fun island hisland =>
    splitIsland_eq hg (hcells island hisland) s hprofile
  simp only [gridClusters, islands_eq hg, Option.bind_eq_bind, Option.bind_some, hclusters]
  rfl

end Checked

end ShowerTrack
