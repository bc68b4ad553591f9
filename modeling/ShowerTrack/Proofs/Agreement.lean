import ShowerTrack.Proofs.Glued

/-!
# Agreement of the island methods

On hits of one sector, with different positive energies and distances that tell neighbors from
others, islands of hits and islands of painted cells are the same components, with the same peaks.
A component with one peak is the same cluster in both methods, and one with several peaks is
split into as many parts.
-/

set_option autoImplicit false

namespace ShowerTrack

variable {α : Type}

theorem ne_of_near {a b : BlockHit α} (hnear : Cell.chebyshev a.site.cell b.site.cell = 1) :
    b ≠ a := by
  rintro rfl
  have hself : Cell.isNeighbor true b.site.cell b.site.cell = true := beq_iff_eq.mpr hnear
  rw [Cell.isNeighbor_iff] at hself
  omega

theorem hitSectors_of_forall {sector : Nat} {hits : List (BlockHit α)} (hne : hits ≠ [])
    (h : ∀ hit ∈ hits, hit.site.sector = sector) : hitSectors hits = [sector] := by
  have hall : ∀ k ∈ hitSectors hits, k = sector := by
    intro k hk
    obtain ⟨hit, hh, rfl⟩ := mem_hitSectors.mp hk
    exact h hit hh
  obtain ⟨hit, hh⟩ := List.exists_mem_of_ne_nil hits hne
  have hmem : sector ∈ hitSectors hits := mem_hitSectors.mpr ⟨hit, hh, h hit hh⟩
  have hnodup := nodup_hitSectors hits
  match hsectors : hitSectors hits with
  | [] => exact absurd (hsectors ▸ hmem) List.not_mem_nil
  | [k] => rw [hall k (hsectors ▸ List.mem_singleton_self k)]
  | k :: l :: rest =>
    rw [hsectors] at hnodup hall
    have hkl : k = l := (hall k (by simp)).trans (hall l (by simp)).symm
    exact absurd (hkl ▸ List.mem_cons_self) (List.nodup_cons.mp hnodup).1

variable [Scalar α]

namespace Island

/-- In one sector nothing is glued. -/
theorem groups_of_sector (s : CaloSettings α) {sector : Nat} {hits : List (BlockHit α)}
    (h : ∀ hit ∈ hits, hit.site.sector = sector) :
    groups s hits = sectorGroups s.corners (Primex.live s hits) := by
  have hlive : ∀ hit ∈ Primex.live s hits, hit.site.sector = sector := fun hit hh =>
    h hit (List.mem_of_mem_filter hh)
  have hblocks : (hitSectors (Primex.live s hits)).flatMap (fun k =>
      (sectorGroups s.corners (inSector k (Primex.live s hits))).map fun group => (k, group)) =
        (sectorGroups s.corners (Primex.live s hits)).map fun group => (sector, group) := by
    by_cases hne : Primex.live s hits = []
    · rw [hne, sectorGroups_nil]
      simp [hitSectors]
    · rw [hitSectors_of_forall hne hlive, List.flatMap_singleton, Primex.inSector_of_forall hlive]
  have hgroups : groups s hits = glue s.corners ((hitSectors (Primex.live s hits)).flatMap fun k =>
      (sectorGroups s.corners (inSector k (Primex.live s hits))).map fun group => (k, group)) := rfl
  rw [hgroups, hblocks, glue, connected_unrelated]
  · rw [List.map_map, List.map_map]
    conv_rhs => rw [← List.map_id (sectorGroups s.corners (Primex.live s hits))]
    apply List.map_congr_left
    intro group _
    exact List.append_nil group
  · intro a ha b hb
    obtain ⟨g, _, rfl⟩ := List.mem_map.mp ha
    obtain ⟨g', _, rfl⟩ := List.mem_map.mp hb
    simp

theorem split_cases (s : CaloSettings α) (p : Profile α) (group : List (BlockHit α)) :
    (localMaxima s group = [] ∧ split s p group = []) ∨
      ((localMaxima s group).length = 1 ∧ split s p group = [.ofHits group]) ∨
      (2 ≤ (localMaxima s group).length ∧
        split s p group = (localMaxima s group).zipIdx.map fun x =>
          sharedCluster s ((sharing p group (localMaxima s group)).shares s.splitIterations)
            x.1 x.2) := by
  unfold split
  split
  · rename_i hmaxima
    exact .inl ⟨hmaxima, rfl⟩
  · rename_i m hmaxima
    exact .inr (.inl ⟨by rw [hmaxima]; rfl, rfl⟩)
  · rename_i hnil hone
    refine .inr (.inr ⟨?_, rfl⟩)
    match hmaxima : localMaxima s group with
    | [] => exact absurd hmaxima hnil
    | [m] => exact absurd hmaxima (hone m)
    | _ :: _ :: _ => simp

theorem length_split (s : CaloSettings α) (p : Profile α) (group : List (BlockHit α)) :
    (split s p group).length = (localMaxima s group).length := by
  rcases split_cases s p group with ⟨hnil, hsplit⟩ | ⟨hone, hsplit⟩ | ⟨_, hsplit⟩
  · rw [hsplit, hnil]
    rfl
  · rw [hsplit, hone]
    rfl
  · rw [hsplit, List.length_map, List.length_zipIdx]

theorem split_single {s : CaloSettings α} {group : List (BlockHit α)}
    (h : (localMaxima s group).length = 1) (p : Profile α) :
    split s p group = [.ofHits group] := by
  rcases split_cases s p group with ⟨hnil, _⟩ | ⟨_, hsplit⟩ | ⟨hmany, _⟩
  · rw [hnil] at h
    cases h
  · exact hsplit
  · omega

theorem flagged_of_mem_split {s : CaloSettings α} {p : Profile α} {group : List (BlockHit α)}
    (h : 2 ≤ (localMaxima s group).length) {c : BlockCluster α} (hc : c ∈ split s p group) :
    c.flags.test .split = true := by
  rcases split_cases s p group with ⟨hnil, _⟩ | ⟨hone, _⟩ | ⟨_, hsplit⟩
  · rw [hnil] at h
    cases h
  · omega
  · rw [hsplit] at hc
    obtain ⟨x, _, rfl⟩ := List.mem_map.mp hc
    rw [sharedCluster, BlockCluster.setFlag, Flags.test_set]
    simp

end Island

namespace Primex

def alone (c : BlockCluster α) : BlockCluster α := .mergeAll [c]

theorem center_alone (c : BlockCluster α) : (alone c).center = c.center := rfl

theorem hits_alone (c : BlockCluster α) : (alone c).hits = c.hits := rfl

theorem flags_alone (c : BlockCluster α) : (alone c).flags = c.flags := by
  have hunion : (alone c).flags = ⟨0#32 ||| c.flags.bits⟩ := rfl
  rw [hunion, BitVec.zero_or]

theorem clusters_of_sector (s : CaloSettings α) (p : Profile α) {sector : Nat}
    {hits : List (BlockHit α)} (hne : hits ≠ []) (h : ∀ hit ∈ hits, hit.site.sector = sector) :
    clusters s p hits = ((sectorGrid sector hits).islands (gridSettings s)).flatMap fun island =>
      (islandClusters s p sector hits island).map alone := by
  have hfound : found s p hits = ((sectorGrid sector hits).islands (gridSettings s)).flatMap
      fun island => (islandClusters s p sector hits island).map fun c => (sector, c) := by
    rw [found_eq, hitSectors_of_forall hne h, List.flatMap_singleton]
  rw [clusters, hfound, glue, connected_unrelated]
  · rw [List.map_flatMap, List.map_flatMap]
    apply List.flatMap_congr
    intro island _
    rw [List.map_map, List.map_map]
    rfl
  · intro a ha b hb
    obtain ⟨_, _, ha⟩ := List.mem_flatMap.mp ha
    obtain ⟨_, _, hb⟩ := List.mem_flatMap.mp hb
    obtain ⟨c, _, rfl⟩ := List.mem_map.mp ha
    obtain ⟨d, _, rfl⟩ := List.mem_map.mp hb
    simp

end Primex

/-- Hits of one sector in different cells of its grid, with different positive energies, where a
distance below that of corners tells neighbors from others. -/
structure Spread (sector : Nat) (hits : List (BlockHit α)) : Prop where
  sameSector : ∀ hit ∈ hits, hit.site.sector = sector
  placed : Primex.Placed (Sectors.shape sector) hits
  positive : ∀ hit ∈ hits, 0 < hit.energy
  distinct : (hits.map (·.energy)).Nodup
  tells : ∀ a ∈ hits, ∀ b ∈ hits, a.site.cell ≠ b.site.cell →
    (a.distance b < cornerAdjacent ↔ Cell.chebyshev a.site.cell b.site.cell = 1)

def Comparable (hits : List (BlockHit α)) : Prop :=
  ∀ a ∈ hits, ∀ b ∈ hits, a.site.cell ≠ b.site.cell →
    a.distance b < cornerAdjacent ∨ cornerAdjacent ≤ a.distance b

section Components

variable {s : CaloSettings α} {sector : Nat} {hits group : List (BlockHit α)}
  (h : Spread sector hits)

structure Component (s : CaloSettings α) (hits group : List (BlockHit α)) : Prop where
  live : ∀ hit ∈ group, hit ∈ Primex.live s hits
  nodup : group.Nodup
  closed : ∀ hit ∈ group, ∀ other ∈ Primex.live s hits,
    Island.neighboring s.corners hit other → other ∈ group

include h

theorem Spread.components : ∀ group ∈ Island.groups s hits, Component s hits group := by
  have hcells : ((Primex.live s hits).map (·.site.cell)).Nodup :=
    h.placed.cells.sublist (List.filter_sublist.map _)
  have hgroups := Island.sectorGroups_components s.corners hcells
  rw [Island.groups_of_sector s h.sameSector]
  intro group hg
  refine ⟨fun hit hh => hgroups.mem_items hg hh,
    hgroups.nodup_group (List.Nodup.of_map _ hcells) hg, ?_⟩
  intro hit hh other ho hn
  exact hgroups.closed hg hh ⟨hgroups.mem_items hg hh, ho, .inl hn⟩

theorem Spread.eq_of_energy {a b : BlockHit α} (ha : a ∈ hits) (hb : b ∈ hits)
    (hab : a.energy = b.energy) : a = b :=
  List.inj_on_of_nodup_map h.distinct ha hb hab

/-- Different hits lie in different cells. -/
theorem Spread.cell_ne {a b : BlockHit α} (ha : a ∈ hits) (hb : b ∈ hits) (hab : a ≠ b) :
    a.site.cell ≠ b.site.cell :=
  fun hcell => hab (List.inj_on_of_nodup_map h.placed.cells ha hb hcell)

variable [Scalar.Ordered α]

theorem Spread.same_eq_false {a b : BlockHit α} (ha : a ∈ hits) (hb : b ∈ hits) (hab : a ≠ b) :
    Scalar.same a.energy b.energy = false :=
  Scalar.Ordered.same_eq_false (h.positive b hb) fun heq => hab (h.eq_of_energy ha hb heq.symm)

/-- A hit is a local maximum of its group when it is above all hits of it that are near. -/
theorem Spread.isMaximum_iff (hdist : Comparable hits) (hsub : ∀ hit ∈ group, hit ∈ hits)
    (hn : group.Nodup) {hit : BlockHit α} {i : Nat} (hi : group[i]? = some hit) :
    Island.isMaximum s group hit i = true ↔ s.minCenterEnergy ≤ hit.energy ∧
      ∀ other ∈ group, Cell.chebyshev hit.site.cell other.site.cell = 1 →
        other.energy < hit.energy := by
  have hh := hsub hit (List.mem_of_getElem? hi)
  rw [Island.isMaximum, Bool.and_eq_true, decide_eq_true_eq, List.all_eq_true]
  apply and_congr_right
  intro _
  constructor
  · intro hmax other ho hnear
    have hne := ne_of_near hnear
    have ho' := hsub other ho
    obtain ⟨j, hj⟩ := List.getElem?_of_mem ho
    have hji : j ≠ i := by
      rintro rfl
      exact hne (Option.some.inj (hj.symm.trans hi))
    have hyields := hmax (other, j) (List.mem_zipIdx_iff_getElem?.mpr hj)
    have hclose := (h.tells hit hh other ho' (h.cell_ne hh ho' hne.symm)).mpr hnear
    simpa [hji, h.same_eq_false ho' hh hne, Scalar.Ordered.not_le_of_lt hclose] using hyields
  · rintro hall ⟨other, j⟩ hx
    have hj := List.mem_zipIdx_iff_getElem?.mp hx
    have ho := List.mem_of_getElem? hj
    by_cases hji : j = i
    · simp [hji]
    · have hne : hit ≠ other := by
        rintro rfl
        exact hji (position_unique hn hj hi)
      by_cases hnear : Cell.chebyshev hit.site.cell other.site.cell = 1
      · simp [hall other ho hnear]
      · have hcell := h.cell_ne hh (hsub other ho) hne
        have hfar := (hdist hit hh other (hsub other ho) hcell).resolve_left fun hclose =>
          hnear ((h.tells hit hh other (hsub other ho) hcell).mp hclose)
        simp [hfar]

/-- The cell of a hit is a peak when the hit is above all that are near. -/
theorem Spread.isPeak_iff {hit : BlockHit α} (hh : hit ∈ hits) :
    (Primex.paint (Sectors.shape sector) hits).isPeak (Primex.gridSettings s) hit.site.cell = true ↔
      ¬ hit.energy < s.minCenterEnergy ∧
        ∀ other ∈ hits, Cell.chebyshev hit.site.cell other.site.cell = 1 →
          other.energy < hit.energy := by
  have hpos := h.positive hit hh
  rw [Grid.isPeak, Bool.and_eq_true, Primex.energy_paint h.placed hh hpos, List.all_eq_true,
    Bool.not_eq_true', decide_eq_false_iff_not]
  apply and_congr_right
  intro _
  constructor
  · intro hall other ho hnear
    have haround : other.site.cell ∈
        (Primex.paint (Sectors.shape sector) hits).around hit.site.cell :=
      Grid.mem_around.mpr ⟨Grid.mem_cells.mp (Grid.mem_cellsOf.mpr (h.placed.inside other ho)),
        beq_iff_eq.mpr hnear⟩
    have hyields := hall other.site.cell haround
    rw [Primex.energy_paint h.placed ho (h.positive other ho),
      h.same_eq_false ho hh (ne_of_near hnear), Bool.false_and, Bool.or_false] at hyields
    exact of_decide_eq_true hyields
  · intro hall d hd
    obtain ⟨hcontains, hneighbor⟩ := Grid.mem_around.mp hd
    have hinside := Grid.mem_cellsOf.mp (Grid.mem_cells.mpr hcontains)
    rw [Bool.or_eq_true, decide_eq_true_eq]
    left
    rcases Primex.energy_paint_cases h.placed h.positive hinside with
      ⟨other, ho, rfl, heq⟩ | ⟨_, heq⟩
    · rw [heq]
      exact hall other ho (beq_iff_eq.mp hneighbor)
    · rw [heq]
      exact hpos

variable (hdist : Comparable hits) (hmin : 0 < s.minBlockEnergy)
  (hcorners : s.corners = true) (hcenter : Scalar.isNumber s.minCenterEnergy = true)

include hmin hcorners

/-- A hit of a component is above all that are near, when it is above those of its component: the
others are below the threshold. -/
theorem Spread.forall_near_iff (hg : Component s hits group) {hit : BlockHit α}
    (hh : hit ∈ group) :
    (∀ other ∈ group, Cell.chebyshev hit.site.cell other.site.cell = 1 →
      other.energy < hit.energy) ↔
    ∀ other ∈ hits, Cell.chebyshev hit.site.cell other.site.cell = 1 →
      other.energy < hit.energy := by
  constructor
  · intro hall other ho hnear
    by_cases hlive : s.minBlockEnergy ≤ other.energy
    · apply hall other _ hnear
      apply hg.closed hit hh other (List.mem_filter.mpr ⟨ho, decide_eq_true hlive⟩)
      rw [Island.neighboring, hcorners]
      exact beq_iff_eq.mpr hnear
    · have hlow := Scalar.Ordered.lt_of_not_le
        (Scalar.Ordered.number_of_lt (h.positive other ho)) (Scalar.Ordered.number_of_lt hmin) hlive
      exact Scalar.Ordered.lt_of_lt_of_le hlow
        (of_decide_eq_true (List.mem_filter.mp (hg.live hit hh)).2)
  · exact fun hall other ho => hall other (List.mem_of_mem_filter (hg.live other ho))

include hdist hcenter

/-- The local maxima of a component are the peaks among its cells. -/
theorem Spread.isMaximum_eq_isPeak (hg : Component s hits group) {hit : BlockHit α} {i : Nat}
    (hi : group[i]? = some hit) : Island.isMaximum s group hit i =
      (Primex.paint (Sectors.shape sector) hits).isPeak (Primex.gridSettings s) hit.site.cell := by
  have hgroup := List.mem_of_getElem? hi
  have hsub : ∀ other ∈ group, other ∈ hits := fun other ho =>
    List.mem_of_mem_filter (hg.live other ho)
  have hthreshold : s.minCenterEnergy ≤ hit.energy ↔ ¬ hit.energy < s.minCenterEnergy :=
    ⟨Scalar.Ordered.not_lt_of_le, Scalar.Ordered.le_of_not_lt
      (Scalar.Ordered.number_of_lt (h.positive hit (hsub hit hgroup))) (of_decide_eq_true hcenter)⟩
  rw [Bool.eq_iff_iff, h.isMaximum_iff hdist hsub hg.nodup hi, h.isPeak_iff (hsub hit hgroup),
    hthreshold, h.forall_near_iff hmin hcorners hg hgroup]

theorem Spread.localMaxima_perm (hg : Component s hits group) {island : List Cell}
    (hperm : (group.map (·.site.cell)).Perm island) :
    ((Island.localMaxima s group).map (·.1.site.cell)).Perm (island.filter
      ((Primex.paint (Sectors.shape sector) hits).isPeak (Primex.gridSettings s))) := by
  have hmaxima : Island.localMaxima s group = group.zipIdx.filter fun x =>
      (Primex.paint (Sectors.shape sector) hits).isPeak (Primex.gridSettings s)
        x.1.site.cell := by
    apply List.filter_congr
    intro x hx
    exact h.isMaximum_eq_isPeak hdist hmin hcorners hcenter hg (List.mem_zipIdx_iff_getElem?.mp hx)
  have hcells : (Island.localMaxima s group).map (·.1.site.cell) =
      (group.map (·.site.cell)).filter
        ((Primex.paint (Sectors.shape sector) hits).isPeak (Primex.gridSettings s)) := by
    rw [hmaxima, List.filter_map]
    conv_rhs => rw [← List.zipIdx_map_fst 0 group, List.filter_map, List.map_map]
    rfl
  rw [hcells]
  exact hperm.filter _

end Components

/-- What both methods make of a component: the same peaks and as many clusters. With one peak the
clusters have the same center, hits and flags, with several all are flagged as parts. -/
structure Agree (s : CaloSettings α) (p : Profile α) (sector : Nat) (hits group : List (BlockHit α))
    (cs : List (BlockCluster α)) : Prop where
  seeds : ∀ hit ∈ group, hit ∈ (Island.localMaxima s group).map Prod.fst ↔
    (Primex.paint (Sectors.shape sector) hits).isPeak (Primex.gridSettings s)
      hit.site.cell = true
  count : cs.length = (Island.split s p group).length
  single : (Island.localMaxima s group).length = 1 → ∃ c d, Island.split s p group = [c] ∧
    cs = [d] ∧ d.center = c.center ∧ d.hits.Perm c.hits ∧ d.flags = c.flags
  several : 2 ≤ (Island.localMaxima s group).length →
    cs.length = (Island.localMaxima s group).length ∧
      ∀ c ∈ Island.split s p group ++ cs, c.flags.test .split = true

section Agreement

variable {s : CaloSettings α} {sector : Nat} {hits group : List (BlockHit α)}
  {island : List Cell} (h : Spread sector hits) (hg : Component s hits group)
  (hperm : (group.map (·.site.cell)).Perm island)

include h hg hperm

theorem Spread.nodup_island : island.Nodup := by
  rw [← hperm.nodup_iff]
  apply List.Nodup.map_on _ hg.nodup
  intro a ha b hb hab
  exact List.inj_on_of_nodup_map h.placed.cells (List.mem_of_mem_filter (hg.live a ha))
    (List.mem_of_mem_filter (hg.live b hb)) hab

theorem Spread.hitAt?_island {cell : Cell} (hcell : cell ∈ island) :
    ∃ hit ∈ group, hit.site.cell = cell ∧ Primex.hitAt? hits cell = some hit := by
  obtain ⟨hit, hh, rfl⟩ := List.mem_map.mp (hperm.mem_iff.mpr hcell)
  exact ⟨hit, hh, rfl, Primex.hitAt?_cell h.placed.cells
    (List.mem_of_mem_filter (hg.live hit hh))⟩

/-- Every part of an island has its peak. -/
theorem Spread.islandClusters_eq (p : Profile α) :
    Primex.islandClusters s p sector hits island =
      ((Primex.paint (Sectors.shape sector) hits).split (Primex.gridSettings s)
        (p.fraction (Sectors.kind sector)) island).map (Primex.toCluster hits) := by
  rw [Primex.islandClusters, Primex.sectorGrid, Primex.painted_of_sector h.sameSector h.placed,
    List.filter_eq_self]
  intro c hc
  obtain ⟨raw, hraw, rfl⟩ := List.mem_map.mp hc
  obtain ⟨hpeak, hcells⟩ := Grid.peak_of_mem_split hraw
  obtain ⟨hit, _, _, hhit⟩ := h.hitAt?_island hg hperm hpeak
  have hn := (Grid.cells_of_mem_split hraw).nodup (h.nodup_island hg hperm)
  rw [Primex.toCluster_inhabited hn hcells ⟨hit, hhit⟩]
  rfl

variable [Scalar.Ordered α]

/-- An island that is not split gives back the hits of its component. -/
theorem Spread.hits_whole (peak : Cell) : (Primex.toCluster hits (Grid.cluster (island.map fun c =>
    (c, (Primex.paint (Sectors.shape sector) hits).energy c)) peak false)).hits.Perm group := by
  have hkeys : ((island.map fun c =>
      (c, (Primex.paint (Sectors.shape sector) hits).energy c)).map Prod.fst).Nodup := by
    simpa [Function.comp_def] using h.nodup_island hg hperm
  apply (Primex.hits_toCluster_perm hkeys).trans
  have hmeasured : ∀ hit ∈ group, Primex.measuredAt hits (hit.site.cell,
      (Primex.paint (Sectors.shape sector) hits).energy hit.site.cell) = some hit := by
    intro hit hh
    have hmem := List.mem_of_mem_filter (hg.live hit hh)
    rw [Primex.measuredAt, Primex.hitAt?_cell h.placed.cells hmem,
      Primex.energy_paint h.placed hmem (h.positive hit hmem)]
    rfl
  have hcells := (hperm.filterMap fun c => Primex.measuredAt hits
    (c, (Primex.paint (Sectors.shape sector) hits).energy c)).symm
  rw [List.filterMap_map] at hcells
  rw [Grid.cluster, List.filterMap_map]
  exact hcells.trans (.of_eq ((List.filterMap_congr hmeasured).trans List.filterMap_some))

omit hperm in
/-- Hits in another order have the same strongest one. -/
theorem Spread.center_of_perm (hne : group ≠ []) {others : List (BlockHit α)}
    (hothers : others.Perm group) :
    (BlockCluster.ofHits others).center = (BlockCluster.ofHits group).center := by
  have hmem : ∀ hit ∈ group, hit ∈ hits := fun hit hh => List.mem_of_mem_filter (hg.live hit hh)
  obtain ⟨m, hm, hlargest⟩ := Scalar.Ordered.exists_largest (f := fun hit => hit.energy) hne
    (fun hit hh => h.positive hit (hmem hit hh))
    fun a ha b hb => h.eq_of_energy (hmem a ha) (hmem b hb)
  rw [BlockCluster.center_ofHits hm hlargest, BlockCluster.center_ofHits
    (hothers.mem_iff.mpr hm) fun hit hh => hlargest hit (hothers.mem_iff.mp hh)]

variable (hdist : Comparable hits) (hmin : 0 < s.minBlockEnergy) (hcorners : s.corners = true)
  (hcenter : Scalar.isNumber s.minCenterEnergy = true)

include hdist hmin hcorners hcenter

theorem Spread.length_peaks : (Island.localMaxima s group).length = (island.filter
    ((Primex.paint (Sectors.shape sector) hits).isPeak (Primex.gridSettings s))).length := by
  have hlength := (h.localMaxima_perm hdist hmin hcorners hcenter hg hperm).length_eq
  rwa [List.length_map] at hlength

omit hperm in
theorem Spread.mem_localMaxima_iff {hit : BlockHit α} (hh : hit ∈ group) :
    hit ∈ (Island.localMaxima s group).map Prod.fst ↔
      (Primex.paint (Sectors.shape sector) hits).isPeak (Primex.gridSettings s)
        hit.site.cell = true := by
  obtain ⟨i, hi⟩ := List.getElem?_of_mem hh
  rw [← h.isMaximum_eq_isPeak hdist hmin hcorners hcenter hg hi]
  constructor
  · intro hmem
    obtain ⟨⟨m, j⟩, hm, rfl⟩ := List.mem_map.mp hmem
    obtain ⟨hj, hmax⟩ := List.mem_filter.mp hm
    obtain rfl := position_unique hg.nodup (List.mem_zipIdx_iff_getElem?.mp hj) hi
    exact hmax
  · intro hmax
    exact List.mem_map.mpr
      ⟨(hit, i), List.mem_filter.mpr ⟨List.mem_zipIdx_iff_getElem?.mpr hi, hmax⟩, rfl⟩

/-- A component with one peak is one cluster in both methods. -/
theorem Spread.exists_same (p : Profile α) (hone : (Island.localMaxima s group).length = 1) :
    ∃ c d, Island.split s p group = [c] ∧
      (Primex.islandClusters s p sector hits island).map Primex.alone = [d] ∧
      d.center = c.center ∧ d.hits.Perm c.hits ∧ d.flags = c.flags := by
  have hlength := h.length_peaks hg hperm hdist hmin hcorners hcenter
  have hne : group ≠ [] := by
    rintro rfl
    cases hone
  obtain ⟨peak, hsplit⟩ := Grid.split_single (p.fraction (Sectors.kind sector))
    (hlength.symm.trans hone)
  have hwhole := h.hits_whole hg hperm peak
  rw [h.islandClusters_eq hg hperm]
  refine ⟨_, _, Island.split_single hone p, by rw [hsplit]; rfl, ?_, ?_, ?_⟩
  · rw [Primex.center_alone, Primex.center_toCluster]
    exact h.center_of_perm hg hne hwhole
  · rw [Primex.hits_alone, BlockCluster.hits_ofHits]
    exact hwhole
  · rw [Primex.flags_alone, Primex.flags_toCluster, BlockCluster.ofHits,
      BlockCluster.flags_addAll]
    rfl

theorem Spread.agree (p : Profile α) : Agree s p sector hits group
    ((Primex.islandClusters s p sector hits island).map Primex.alone) := by
  have hlength := h.length_peaks hg hperm hdist hmin hcorners hcenter
  refine ⟨fun _ => h.mem_localMaxima_iff hg hdist hmin hcorners hcenter, ?_,
    h.exists_same hg hperm hdist hmin hcorners hcenter p, ?_⟩
  · rw [h.islandClusters_eq hg hperm, List.length_map, List.length_map, Grid.length_split,
      ← hlength, Island.length_split]
  · intro hseveral
    rw [h.islandClusters_eq hg hperm]
    refine ⟨by rw [List.length_map, List.length_map, Grid.length_split, hlength], ?_⟩
    intro c hc
    rcases List.mem_append.mp hc with hc | hc
    · exact Island.flagged_of_mem_split hseveral hc
    · obtain ⟨d, hd, rfl⟩ := List.mem_map.mp hc
      obtain ⟨raw, hraw, rfl⟩ := List.mem_map.mp hd
      rw [Primex.flags_alone, Primex.flags_toCluster,
        Grid.split_of_mem (hlength ▸ hseveral) hraw, if_pos rfl, Flags.test_set]
      simp

end Agreement

/-- Both methods find the same components, the same peaks in them, and as many clusters. -/
theorem methods_agree [Scalar.Ordered α] (s : CaloSettings α) (p : Profile α) {sector : Nat}
    {hits : List (BlockHit α)} (h : Spread sector hits) (hdist : Comparable hits)
    (hmin : 0 < s.minBlockEnergy) (hcorners : s.corners = true)
    (hcenter : Scalar.isNumber s.minCenterEnergy = true) :
    ∃ parts, parts.flatten.Perm (Primex.clusters s p hits) ∧
      List.Forall₂ (Agree s p sector hits) (Island.groups s hits) parts ∧
      (Primex.clusters s p hits).length = (Island.clusters s p hits).length := by
  obtain ⟨islands, hislands, hmatched⟩ :=
    Primex.exists_islands h.placed h.positive hmin (s := s)
  rw [← Island.groups_of_sector s h.sameSector] at hmatched
  have hagree : List.Forall₂ (Agree s p sector hits) (Island.groups s hits)
      (islands.map fun island =>
        (Primex.islandClusters s p sector hits island).map Primex.alone) := by
    rw [List.forall₂_map_right_iff]
    apply ((List.forall₂_and_left _ _).mpr ⟨h.components (s := s), hmatched⟩).imp
    rintro group island ⟨hg, hperm⟩
    exact h.agree hg hperm hdist hmin hcorners hcenter p
  have hparts : (islands.map fun island =>
      (Primex.islandClusters s p sector hits island).map Primex.alone).flatten.Perm
        (Primex.clusters s p hits) := by
    rcases eq_or_ne hits [] with rfl | hne
    · have hnone : Island.groups s ([] : List (BlockHit α)) = [] := by
        rw [Island.groups_of_sector s h.sameSector]
        exact Island.sectorGroups_nil s.corners
      rw [hnone, List.forall₂_nil_left_iff] at hmatched
      subst hmatched
      simp [Primex.clusters, Primex.found, hitSectors, Primex.glue, connected_unrelated]
    · rw [Primex.clusters_of_sector s p hne h.sameSector, ← List.flatMap_def, Primex.sectorGrid,
        Primex.painted_of_sector h.sameSector h.placed]
      exact hislands.flatMap_right _
  refine ⟨_, hparts, hagree, ?_⟩
  have hcounts : (islands.map fun island =>
      (Primex.islandClusters s p sector hits island).map Primex.alone).map List.length =
        (Island.groups s hits).map fun group => (Island.split s p group).length := by
    rw [← List.forall₂_eq_eq_eq, List.forall₂_map_left_iff, List.forall₂_map_right_iff]
    exact hagree.flip.imp fun _ _ hcount => hcount.count
  rw [← hparts.length_eq, Island.clusters, List.length_flatten, List.length_flatMap, hcounts]

def withCorners : CaloSettings Float32 := { CaloSettings.standard with corners := true }

/-- Two neighbors and a third crystal beyond a gap. -/
def apart : List (BlockHit Float32) :=
  [(Sectors.crystal 0 17).hit 300, (Sectors.crystal 0 18).hit 100, (Sectors.crystal 0 20).hit 60]

theorem methods_agree_on_apart :
    (Spread 0 apart ∧ Comparable apart ∧ 0 < withCorners.minBlockEnergy ∧
      withCorners.corners = true ∧ Scalar.isNumber withCorners.minCenterEnergy = true) ∧
    ∃ parts, parts.flatten.Perm (Primex.clusters withCorners ⟨#[], #[]⟩ apart) ∧
      List.Forall₂ (Agree withCorners ⟨#[], #[]⟩ 0 apart) (Island.groups withCorners apart) parts ∧
      (Primex.clusters withCorners ⟨#[], #[]⟩ apart).length =
        (Island.clusters withCorners ⟨#[], #[]⟩ apart).length := by
  have hspread : Spread 0 apart := ⟨by decide, ⟨by decide, by decide⟩, by decide +kernel,
    by decide +kernel, by decide +kernel⟩
  have hdist : Comparable apart := by
    unfold Comparable
    decide +kernel
  have hmin : 0 < withCorners.minBlockEnergy := by decide +kernel
  have hcenter : Scalar.isNumber withCorners.minCenterEnergy = true := by decide +kernel
  exact ⟨⟨hspread, hdist, hmin, rfl, hcenter⟩,
    methods_agree withCorners ⟨#[], #[]⟩ hspread hdist hmin rfl hcenter⟩

def lone : List (BlockHit Float32) := [(Sectors.glassBlock 1 5 15).hit 300]

/-- A center threshold that is no number. -/
def doubtful : CaloSettings Float32 := { withCorners with minCenterEnergy := 0 / 0 }

/-- Blocks of such a size that the outer ones have no distance. -/
def huge : List (BlockHit Float32) :=
  [⟨1, ⟨.glass, 2e38, 2e38, 0, 0, 0⟩, ⟨.empty, 1, 0, 0⟩, 50⟩,
    ⟨2, ⟨.glass, 2e38, 2e38, 1e38, 0, 0⟩, ⟨.empty, 1, 0, 1⟩, 20⟩,
    ⟨3, ⟨.glass, 2e38, 2e38, 2e38, 0, 0⟩, ⟨.empty, 1, 0, 2⟩, 60⟩]

theorem spread_lone : Spread 1 lone :=
  ⟨by decide, ⟨by decide, by decide⟩, by decide +kernel, by decide +kernel, by decide +kernel⟩

theorem spread_huge : Spread 1 huge :=
  ⟨by decide, ⟨by decide, by decide⟩, by decide +kernel, by decide +kernel, by decide +kernel⟩

/-- No energy reaches a threshold that is no number, and none falls below it. -/
theorem counts_lone : (Island.clusters doubtful ⟨#[], #[]⟩ lone).length = 0 ∧
    (Primex.clusters doubtful ⟨#[], #[]⟩ lone).length = 1 := by
  constructor
  · rw [Island.clusters, List.length_eq_zero_iff, List.flatMap_eq_nil_iff]
    intro group hgroup
    rw [← List.length_eq_zero_iff, Island.length_split, List.length_eq_zero_iff,
      Island.localMaxima, List.filter_eq_nil_iff]
    rintro ⟨hit, i⟩ hx
    have hlive := (spread_lone.components group hgroup).live hit
      (List.fst_mem_of_mem_zipIdx hx)
    have hlone := List.mem_singleton.mp (List.mem_of_mem_filter hlive)
    have hbelow : ¬ doubtful.minCenterEnergy ≤ hit.energy := by
      rw [hlone]
      decide +kernel
    simp [Island.isMaximum, hbelow]
  · rw [Primex.clusters_of_sector _ _ (by simp [lone]) spread_lone.sameSector, Primex.sectorGrid,
      Primex.painted_of_sector spread_lone.sameSector spread_lone.placed,
      Primex.islands_of_isChain spread_lone.placed (by decide +kernel) (by decide +kernel)
        [(5, 15)] (by decide +kernel) (by decide) (by decide) (by decide)]
    decide +kernel

/-- The first hit yields to the third on the blocks, and on the grid it does not. -/
theorem counts_huge : (Island.clusters withCorners ⟨#[], #[]⟩ huge).length = 1 ∧
    (Primex.clusters withCorners ⟨#[], #[]⟩ huge).length = 2 := by
  constructor
  · have hlive : Primex.live withCorners huge = huge :=
      List.filter_eq_self.mpr (by decide +kernel)
    have hsorted : huge.mergeSort Island.columnOrder = huge :=
      List.mergeSort_of_pairwise (by decide)
    rw [Island.clusters, Island.groups_of_sector withCorners spread_huge.sameSector, hlive,
      Island.sectorGroups, Island.chains, hsorted]
    decide +kernel
  · rw [Primex.clusters_of_sector _ _ (by simp [huge]) spread_huge.sameSector, Primex.sectorGrid,
      Primex.painted_of_sector spread_huge.sameSector spread_huge.placed,
      Primex.islands_of_isChain spread_huge.placed (by decide +kernel) (by decide +kernel)
        [(0, 0), (0, 1), (0, 2)] (by decide +kernel) (by decide) (by decide) (by decide)]
    decide +kernel

/-- A threshold or a distance that is no number is read one way on hits and the other on a grid. -/
theorem counts_differ_beyond_numbers :
    (Spread 1 lone ∧ 0 < doubtful.minBlockEnergy ∧ doubtful.corners = true ∧
      (Island.clusters doubtful ⟨#[], #[]⟩ lone).length ≠
        (Primex.clusters doubtful ⟨#[], #[]⟩ lone).length) ∧
    (Spread 1 huge ∧ 0 < withCorners.minBlockEnergy ∧ withCorners.corners = true ∧
      (Island.clusters withCorners ⟨#[], #[]⟩ huge).length ≠
        (Primex.clusters withCorners ⟨#[], #[]⟩ huge).length) := by
  refine ⟨⟨spread_lone, by decide +kernel, rfl, ?_⟩, spread_huge, by decide +kernel, rfl, ?_⟩
  · rw [counts_lone.1, counts_lone.2]
    decide
  · rw [counts_huge.1, counts_huge.2]
    decide

end ShowerTrack
