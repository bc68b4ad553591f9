import ShowerTrack.Proofs.Checked.Grid

/-!
# Checked glued clusters

Painting keeps the grid dense and remembers for each cell the position of the hit that was painted
last. A cell of a cluster is traced back to a hit by these positions.
-/

set_option autoImplicit false

namespace ShowerTrack.Checked

variable {α : Type}

theorem dense_tabulate (rows columns : Nat) (f : Cell → α) :
    (Grid.tabulate rows columns f).Dense := by
  simp [Grid.Dense, Grid.tabulate, Grid.length_cellsOf]

def fits (shape : Nat × Nat) (hit : BlockHit α) : Bool :=
  hit.site.row < shape.1 && hit.site.column < shape.2

def fitting (shape : Nat × Nat) (hits : List (BlockHit α)) : List (BlockHit α × Nat) :=
  hits.zipIdx.filter fun x => fits shape x.1

theorem map_fst_fitting (shape : Nat × Nat) (hits : List (BlockHit α)) :
    (fitting shape hits).map Prod.fst = Primex.onGrid shape hits := by
  have hmap := List.filter_map (f := Prod.fst) (p := fits shape) (l := hits.zipIdx)
  rw [List.zipIdx_map_fst] at hmap
  exact hmap.symm

def hitBehind (hits : List (BlockHit α)) (cells : List (Cell × Nat)) (x : Cell × α) :
    Option (Option (BlockHit α)) :=
  match cells.find? (·.1 == x.1) with
  | none => some none
  | some (_, i) => do
    let hit ← hits[i]?
    some (some { hit with energy := x.2 })

theorem hitBehind_eq (shape : Nat × Nat) (hits : List (BlockHit α)) (x : Cell × α) :
    hitBehind hits ((fitting shape hits).map fun y => (y.1.site.cell, y.2)).reverse x =
      some ((Primex.hitAt? (Primex.onGrid shape hits) x.1).map fun hit =>
        { hit with energy := x.2 }) := by
  have hpainted : ((fitting shape hits).map fun y => (y.1.site.cell, y.2)).reverse.find?
      (·.1 == x.1) = ((fitting shape hits).reverse.find? fun y => y.1.site.cell == x.1).map
        fun y => (y.1.site.cell, y.2) := by
    rw [← List.map_reverse, List.find?_map]
    rfl
  have hhit : Primex.hitAt? (Primex.onGrid shape hits) x.1 =
      ((fitting shape hits).reverse.find? fun y => y.1.site.cell == x.1).map Prod.fst := by
    rw [Primex.hitAt?, ← map_fst_fitting, ← List.map_reverse, List.find?_map]
    rfl
  rw [hitBehind, hpainted, hhit]
  cases hfind : (fitting shape hits).reverse.find? fun y => y.1.site.cell == x.1 with
  | none => rfl
  | some y =>
    have hmem : y ∈ fitting shape hits := List.mem_reverse.mp (List.mem_of_find?_eq_some hfind)
    have hread : hits[y.2]? = some y.1 :=
      List.mem_zipIdx_iff_getElem?.mp (List.mem_of_mem_filter hmem)
    simp [hread]

variable [Scalar α]

section Painting

def addTo (g : Grid α) (c : Cell) (e : α) : Option (Grid α) :=
  if g.contains c then
    (edit g.values (c.1 * g.columns + c.2) fun v => some (v + e)).map fun values =>
      { g with values }
  else none

/-- A grid, and the cells that were painted with the positions of their hits, the last one
first. -/
structure Painting (α : Type) where
  grid : Grid α
  cells : List (Cell × Nat)

def paintHit (shape : Nat × Nat) (p : Painting α) (x : BlockHit α × Nat) : Option (Painting α) :=
  if fits shape x.1 then do
    let grid ← addTo p.grid x.1.site.cell x.1.energy
    some ⟨grid, (x.1.site.cell, x.2) :: p.cells⟩
  else some p

def paint (shape : Nat × Nat) (hits : List (BlockHit α)) : Option (Painting α) :=
  hits.zipIdx.foldlM (paintHit shape) ⟨⟨shape.1, shape.2, .replicate (shape.1 * shape.2) 0⟩, []⟩

theorem addTo_eq {shape : Nat × Nat} {c : Cell} (hc : c.1 < shape.1 ∧ c.2 < shape.2) (f : Cell → α)
    (e : α) : addTo (Grid.tabulate shape.1 shape.2 f) c e =
      some (Grid.tabulate shape.1 shape.2 fun d => if d = c then f d + e else f d) := by
  have hcontains : (Grid.tabulate shape.1 shape.2 f).contains c = true := by
    simp [Grid.contains, Grid.tabulate, hc]
  have hplace := Grid.getElem?_cellsOf hc
  have hvalue : ((Grid.cellsOf shape.1 shape.2).map f).toArray[c.1 * shape.2 + c.2]? =
      some (f c) := by
    rw [List.getElem?_toArray, List.getElem?_map, hplace]
    rfl
  have hvalues : ((Grid.cellsOf shape.1 shape.2).map f).toArray.setIfInBounds
      (c.1 * shape.2 + c.2) (f c + e) =
        ((Grid.cellsOf shape.1 shape.2).map fun d => if d = c then f d + e else f d).toArray := by
    apply Array.ext_getElem?
    intro j
    rw [Array.getElem?_setIfInBounds, List.getElem?_toArray, List.getElem?_toArray,
      List.getElem?_map, List.getElem?_map]
    by_cases hj : c.1 * shape.2 + c.2 = j
    · have hbound : c.1 * shape.2 + c.2 < ((Grid.cellsOf shape.1 shape.2).map f).toArray.size := by
        simpa [Grid.length_cellsOf] using flat_lt hc.1 hc.2
      subst hj
      rw [if_pos rfl, if_pos hbound, hplace, Option.map_some, if_pos rfl]
    · rw [if_neg hj]
      apply Option.map_congr
      intro d hd
      have hdc : d ≠ c := by
        rintro rfl
        exact hj (position_unique (Grid.nodup_cellsOf _ _) hplace hd)
      rw [if_neg hdc]
  have hedit := edit_eq hvalue (f := fun v => some (v + e)) rfl
  rw [hvalues] at hedit
  rw [addTo, if_pos hcontains]
  exact congrArg (Option.map fun values => (⟨shape.1, shape.2, values⟩ : Grid α)) hedit

def painted (f : Cell → α) (hits : List (BlockHit α)) (c : Cell) : α :=
  (hits.filter (·.site.cell == c)).foldl (fun e hit => e + hit.energy) (f c)

theorem foldlM_paintHit (shape : Nat × Nat) (f : Cell → α) (cells : List (Cell × Nat))
    (hits : List (BlockHit α × Nat)) :
    hits.foldlM (paintHit shape) ⟨.tabulate shape.1 shape.2 f, cells⟩ =
      some ⟨.tabulate shape.1 shape.2
          (painted f ((hits.filter fun x => fits shape x.1).map Prod.fst)),
        ((hits.filter fun x => fits shape x.1).map fun x => (x.1.site.cell, x.2)).reverse ++
          cells⟩ := by
  induction hits generalizing f cells with
  | nil => rfl
  | cons x hits ih =>
    rw [List.foldlM_cons]
    by_cases hfits : fits shape x.1 = true
    · have hcell : x.1.site.cell.1 < shape.1 ∧ x.1.site.cell.2 < shape.2 := by
        simpa [fits, Site.cell] using hfits
      have hstep : paintHit shape ⟨.tabulate shape.1 shape.2 f, cells⟩ x =
          some ⟨.tabulate shape.1 shape.2 fun d =>
            if d = x.1.site.cell then f d + x.1.energy else f d,
              (x.1.site.cell, x.2) :: cells⟩ := by
        rw [paintHit, if_pos hfits, addTo_eq hcell]
        rfl
      have hpainted : painted (fun d => if d = x.1.site.cell then f d + x.1.energy else f d)
          ((hits.filter fun x => fits shape x.1).map Prod.fst) =
            painted f (x.1 :: (hits.filter fun x => fits shape x.1).map Prod.fst) := by
        funext d
        by_cases hd : x.1.site.cell = d
        · simp [painted, hd]
        · simp [painted, hd, Ne.symm hd]
      rw [hstep, Option.bind_eq_bind, Option.bind_some, ih, hpainted]
      simp [hfits]
    · have hstep : paintHit shape ⟨.tabulate shape.1 shape.2 f, cells⟩ x =
          some ⟨.tabulate shape.1 shape.2 f, cells⟩ := by
        rw [paintHit, if_neg hfits]
      rw [hstep, Option.bind_eq_bind, Option.bind_some, ih]
      simp [hfits]

theorem paint_eq (shape : Nat × Nat) (hits : List (BlockHit α)) :
    paint shape hits = some ⟨Primex.paint shape (Primex.onGrid shape hits),
      ((fitting shape hits).map fun x => (x.1.site.cell, x.2)).reverse⟩ := by
  have hzero : (⟨shape.1, shape.2, .replicate (shape.1 * shape.2) 0⟩ : Grid α) =
      .tabulate shape.1 shape.2 fun _ => 0 := by
    simp [Grid.tabulate, Grid.length_cellsOf, List.map_const']
  rw [paint, hzero, foldlM_paintHit, ← fitting, map_fst_fitting, List.append_nil]
  rfl

end Painting

section Clusters

def toCluster (hits : List (BlockHit α)) (cells : List (Cell × Nat)) (raw : GridCluster α) :
    Option (BlockCluster α) := do
  let peak := (raw.cells.find? (·.1 == raw.peak)).toList
  let rest := raw.cells.filter (·.1 != raw.peak)
  let found ← (peak ++ rest).mapM (hitBehind hits cells)
  let cluster := BlockCluster.ofHits (found.filterMap id)
  some (if raw.split then cluster.setFlag .split else cluster)

def numberedClusters (s : CaloSettings α) (p : Profile α) (bucket : List (BlockHit α) × Nat) :
    Option (List (Nat × BlockCluster α)) :=
  if bucket.1.isEmpty then some []
  else do
    let painting ← paint (Sectors.shape bucket.2) bucket.1
    let raws ← gridClusters painting.grid (Primex.gridSettings s)
      (fraction p (Sectors.kind bucket.2))
    let clusters ← raws.mapM (toCluster bucket.1 painting.cells)
    some ((clusters.filter (!·.isEmpty)).map fun c => (bucket.2, c))

def primexClusters (s : CaloSettings α) (p : Profile α) (hits : List (BlockHit α)) :
    Option (List (BlockCluster α)) := do
  let buckets ← bySector hits hits
  let found ← buckets.zipIdx.mapM (numberedClusters s p)
  let glued ← connectedWithin (fun _ _ => true)
    (fun a b => a.1 != b.1 && touching s.corners a.2.hits b.2.hits) found.flatten
  some (glued.map fun members => .mergeAll (members.map (·.2)))

theorem toCluster_eq (shape : Nat × Nat) (hits : List (BlockHit α)) (raw : GridCluster α) :
    toCluster hits ((fitting shape hits).map fun y => (y.1.site.cell, y.2)).reverse raw =
      some (Primex.toCluster (Primex.onGrid shape hits) raw) := by
  simp only [toCluster, mapM_eq fun x _ => hitBehind_eq shape hits x, Option.bind_eq_bind,
    Option.bind_some, List.filterMap_map]
  rfl

theorem numberedClusters_eq (s : CaloSettings α) {p : Profile α} (hp : p.Full)
    (bucket : List (BlockHit α) × Nat) : numberedClusters s p bucket =
      some (if bucket.1.isEmpty then []
        else (Primex.sectorClusters s p bucket.2 bucket.1).map fun c => (bucket.2, c)) := by
  rw [numberedClusters]
  split
  · rfl
  · have hdense : (Primex.paint (Sectors.shape bucket.2)
        (Primex.onGrid (Sectors.shape bucket.2) bucket.1)).Dense := dense_tabulate _ _ _
    simp only [paint_eq, gridClusters_eq hdense _ (fraction_eq hp (Sectors.kind bucket.2)),
      mapM_eq fun raw _ => toCluster_eq (Sectors.shape bucket.2) bucket.1 raw,
      Option.bind_eq_bind, Option.bind_some]
    rfl

theorem primexClusters_eq (s : CaloSettings α) {p : Profile α} (hp : p.Full)
    (hits : List (BlockHit α)) : primexClusters s p hits = some (Primex.clusters s p hits) := by
  have hempty : ∀ k, inSector k hits = [] → (if (inSector k hits).isEmpty then []
      else (Primex.sectorClusters s p k (inSector k hits)).map fun c => (k, c)) = [] := by
    intro k hk
    rw [hk]
    rfl
  have hflat := flatMap_range (fun hit hh => sector_lt hh) hempty
  have hfound : Primex.found s p hits = (hitSectors hits).flatMap fun k =>
      if (inSector k hits).isEmpty then []
      else (Primex.sectorClusters s p k (inSector k hits)).map fun c => (k, c) := by
    apply List.flatMap_congr
    intro k hk
    obtain ⟨hit, hh, hsector⟩ := mem_hitSectors.mp hk
    have hne : inSector k hits ≠ [] := List.ne_nil_of_mem (mem_inSector.mpr ⟨hh, hsector⟩)
    rw [if_neg (by simpa using hne)]
  have hclusters := mapM_eq
    (l := ((List.range (sectorBound hits)).map fun k => inSector k hits).zipIdx)
    fun bucket _ => numberedClusters_eq s hp bucket
  rw [zipIdx_map_range, List.map_map] at hclusters
  simp only [primexClusters, bySector_eq fun hit hh => hh, Option.bind_eq_bind, Option.bind_some,
    zipIdx_map_range, hclusters, connectedWithin_eq]
  rw [Primex.clusters, hfound, ← hflat, Primex.glue, connected, List.flatMap_def]
  rfl

end Clusters

end ShowerTrack.Checked
