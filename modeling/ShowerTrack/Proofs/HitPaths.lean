import ShowerTrack.Calorimeter.Shape
import ShowerTrack.Proofs.Agreement
import ShowerTrack.Proofs.Archipelago

/-!
# Paths of hits

Hits that a sector cluster puts together are joined by a path of neighboring hits, unless the
threshold is one that a block without a hit reaches: then the whole grid of the sector is one
island, and its hits come together across blocks that measured nothing.
-/

set_option autoImplicit false

namespace ShowerTrack

/-- A path of images is one of the items, where different items have different images. -/
theorem Joined.of_map {β γ : Type} {f : β → γ} {R : γ → γ → Prop} {items : List β}
    (hf : ∀ a ∈ items, ∀ b ∈ items, f a = f b → a = b) {a b : β} (ha : a ∈ items)
    (hb : b ∈ items) (path : Joined R (items.map f) (f a) (f b)) :
    Joined (fun x y => R (f x) (f y)) items a b := by
  have hend : ∀ c, Joined R (items.map f) (f a) c → ∀ d ∈ items, f d = c →
      Joined (fun x y => R (f x) (f y)) items a d := by
    intro c path
    induction path with
    | refl =>
      intro d hd hda
      rw [hf d hd a ha hda]
      exact .refl a
    | tail _ link ih =>
      rintro d hd rfl
      obtain ⟨e, he, rfl⟩ := List.mem_map.mp link.1
      exact (ih e he rfl).trans (Linked.joined ⟨he, hd, link.2.2⟩)
  exact hend _ path b hb rfl

/-- A grid is connected: every cell has a path along its row and then up to the first one. -/
theorem joined_cellsOf (corners : Bool) {rows columns : Nat} {c : Cell}
    (hc : c ∈ Grid.cellsOf rows columns) :
    Joined (fun a b => Cell.isNeighbor corners a b = true) (Grid.cellsOf rows columns) c
      (0, 0) := by
  obtain ⟨row, column⟩ := c
  induction column generalizing row with
  | zero =>
    induction row with
    | zero => exact .refl _
    | succ row ih =>
      have habove : (row, 0) ∈ Grid.cellsOf rows columns := by
        rw [Grid.mem_cellsOf] at hc ⊢
        exact ⟨Nat.lt_of_succ_lt hc.1, hc.2⟩
      have hstep : Cell.isNeighbor corners (row + 1, 0) (row, 0) = true := by
        rw [Cell.isNeighbor_iff]
        dsimp only
        omega
      exact (Linked.joined ⟨hc, habove, .inl hstep⟩).trans (ih habove)
  | succ column ih =>
    have hbeside : (row, column) ∈ Grid.cellsOf rows columns := by
      rw [Grid.mem_cellsOf] at hc ⊢
      exact ⟨hc.1, Nat.lt_of_succ_lt hc.2⟩
    have hstep : Cell.isNeighbor corners (row, column + 1) (row, column) = true := by
      rw [Cell.isNeighbor_iff]
      dsimp only
      omega
    exact (Linked.joined ⟨hc, hbeside, .inl hstep⟩).trans (ih row hbeside)

namespace Primex

variable {α : Type} [Scalar α] [Scalar.Ordered α] {s : CaloSettings α} {shape : Nat × Nat}
  {hits : List (BlockHit α)}

section Islands

variable (h : Placed shape hits) (hpos : ∀ hit ∈ hits, 0 < hit.energy)

include h hpos

/-- Hits in one island are joined by hits, where a cell without a hit does not reach the
threshold. -/
theorem joined_of_mem_island (hmin : ¬ s.minBlockEnergy ≤ 0) {island : List Cell}
    (hi : island ∈ (paint shape hits).islands (gridSettings s)) {a b : BlockHit α} (ha : a ∈ hits)
    (hb : b ∈ hits) (hac : a.site.cell ∈ island) (hbc : b.site.cell ∈ island) :
    Joined (Island.neighboring s.corners) hits a b := by
  have hcells : ∀ x ∈ hits, ∀ y ∈ hits, x.site.cell = y.site.cell → x = y :=
    fun x hx y hy => List.inj_on_of_nodup_map h.cells hx hy
  by_cases hnumber : s.minBlockEnergy ≤ s.minBlockEnergy
  · -- the threshold is above zero, so that only cells of hits are dry
    have hzero : (0 : α) ≤ 0 :=
      Scalar.Ordered.le_self_left (Scalar.Ordered.le_of_lt (hpos a ha))
    have hislands := islands_paint (s := s) h hpos (Scalar.Ordered.lt_of_not_le hzero hnumber hmin)
    have hlive : ∀ x ∈ hits, x.site.cell ∈ island → x ∈ live s hits := by
      intro x hx hxc
      obtain ⟨y, hy, hyx⟩ := List.mem_map.mp (hislands.mem_items hi hxc)
      rwa [← hcells y (List.mem_of_mem_filter hy) x hx hyx]
    have path := Joined.of_map (fun x hx y hy => hcells x (List.mem_of_mem_filter hx) y
      (List.mem_of_mem_filter hy)) (hlive a ha hac) (hlive b hb hbc)
      (hislands.joined hi hac hbc)
    apply path.mono
    intro x y link
    exact Linked.joined ⟨List.mem_of_mem_filter link.1, List.mem_of_mem_filter link.2.1, link.2.2⟩
  · -- a threshold that is no number leaves single cells
    rw [Grid.islands_of_no_threshold _ hnumber] at hi
    obtain ⟨c, _, rfl⟩ := List.mem_map.mp hi
    rw [hcells a ha b hb ((List.mem_singleton.mp hac).trans (List.mem_singleton.mp hbc).symm)]
    exact .refl b

/-- A threshold that cells without a hit reach makes one island of the grid. -/
theorem islands_of_low_threshold (hmin : s.minBlockEnergy ≤ 0)
    (hne : (paint shape hits).cells ≠ []) : ∃ island,
      (paint shape hits).islands (gridSettings s) = [island] ∧
        island.Perm (paint shape hits).cells := by
  have hreach : ∀ c ∈ (paint shape hits).cells,
      s.minBlockEnergy ≤ (paint shape hits).energy c := by
    intro c hc
    rcases energy_paint_cases h hpos (Grid.mem_cellsOf.mp hc) with
      ⟨hit, hh, _, henergy⟩ | ⟨_, henergy⟩
    · rw [henergy]
      exact Scalar.Ordered.le_trans hmin (Scalar.Ordered.le_of_lt (hpos hit hh))
    · rw [henergy]
      exact hmin
  have hdry : (paint shape hits).cells.filter ((paint shape hits).isDry (gridSettings s)) =
      (paint shape hits).cells := by
    rw [List.filter_eq_self]
    intro c hc
    rw [Grid.isDry, Bool.not_eq_true', decide_eq_false_iff_not]
    exact Scalar.Ordered.not_lt_of_le (hreach c hc)
  have hislands := (paint shape hits).islands_neighbors (gridSettings s)
    fun c hc _ => hreach c hc
  rw [hdry] at hislands
  apply hislands.eq_singleton (Grid.nodup_cellsOf _ _) hne
  intro a ha b hb
  exact (joined_cellsOf _ ha).trans (joined_cellsOf _ hb).symm

end Islands

omit [Scalar.Ordered α] in
theorem clusters_nil (s : CaloSettings α) (p : Profile α) : clusters s p [] = [] := by
  simp [clusters, found, hitSectors, glue, connected_unrelated]

/-- Any two blocks of a cluster of one sector are joined by a path of neighboring hits, if a block
without a hit does not reach the threshold. -/
theorem cluster_joined_by_hits (s : CaloSettings α) (hmin : ¬ s.minBlockEnergy ≤ 0)
    (p : Profile α) {sector : Nat} {hits : List (BlockHit α)}
    (hsector : ∀ hit ∈ hits, hit.site.sector = sector)
    (hplaced : Placed (Sectors.shape sector) hits) (hpos : ∀ hit ∈ hits, 0 < hit.energy) :
    ∀ c ∈ clusters s p hits, ∀ x ∈ c.hits, ∀ y ∈ c.hits, ∃ a ∈ hits, ∃ b ∈ hits,
      (a.id = x.id ∧ a.site = x.site) ∧ (b.id = y.id ∧ b.site = y.site) ∧
        Joined (Island.neighboring s.corners) hits a b := by
  intro c hc x hx y hy
  rcases eq_or_ne hits [] with rfl | hne
  · rw [clusters_nil] at hc
    cases hc
  · rw [clusters_of_sector s p hne hsector] at hc
    obtain ⟨island, hi, hc⟩ := List.mem_flatMap.mp hc
    obtain ⟨d, hd, rfl⟩ := List.mem_map.mp hc
    rw [sectorGrid, painted_of_sector hsector hplaced] at hi
    obtain ⟨⟨a, ha, hax⟩, _, hxcell⟩ := origin_of_mem_islandClusters hd (hits_alone d ▸ hx)
    obtain ⟨⟨b, hb, hby⟩, _, hycell⟩ := origin_of_mem_islandClusters hd (hits_alone d ▸ hy)
    exact ⟨a, ha, b, hb, hax, hby, joined_of_mem_island hplaced hpos hmin hi ha hb
      (hax.2 ▸ hxcell) (hby.2 ▸ hycell)⟩

theorem apart_cluster_joined_by_hits : ¬ CaloSettings.standard.minBlockEnergy ≤ (0 : Float32) ∧
    (∀ hit ∈ apart, hit.site.sector = 0) ∧ Placed (Sectors.shape 0) apart ∧
    (∀ hit ∈ apart, 0 < hit.energy) ∧
    ∀ c ∈ clusters .standard .standard apart, ∀ x ∈ c.hits, ∀ y ∈ c.hits,
      ∃ a ∈ apart, ∃ b ∈ apart, (a.id = x.id ∧ a.site = x.site) ∧ (b.id = y.id ∧ b.site = y.site) ∧
        Joined (Island.neighboring (CaloSettings.standard (α := Float32)).corners) apart a b := by
  have hmin : ¬ CaloSettings.standard.minBlockEnergy ≤ (0 : Float32) := by decide +kernel
  have hsector : ∀ hit ∈ apart, hit.site.sector = 0 := by decide
  have hplaced : Placed (Sectors.shape 0) apart := ⟨by decide, by decide⟩
  have hpos : ∀ hit ∈ apart, 0 < hit.energy := by decide +kernel
  exact ⟨hmin, hsector, hplaced, hpos,
    cluster_joined_by_hits .standard hmin .standard hsector hplaced hpos⟩

/-- A threshold that blocks without a hit reach puts all hits of a sector with one peak into one
cluster, wherever they lie. -/
theorem clusters_of_low_threshold {sector : Nat} (hmin : s.minBlockEnergy ≤ 0) (p : Profile α)
    (hsector : ∀ hit ∈ hits, hit.site.sector = sector)
    (hplaced : Placed (Sectors.shape sector) hits) (hpos : ∀ hit ∈ hits, 0 < hit.energy)
    (hpeak : ((paint (Sectors.shape sector) hits).cells.filter
      ((paint (Sectors.shape sector) hits).isPeak (gridSettings s))).length = 1)
    (hne : hits ≠ []) : ∃ c, clusters s p hits = [c] ∧ hits ⊆ c.hits := by
  have hcells : (paint (Sectors.shape sector) hits).cells ≠ [] := by
    intro hnil
    rw [hnil] at hpeak
    cases hpeak
  obtain ⟨island, hislands, hperm⟩ := islands_of_low_threshold hplaced hpos hmin hcells
  obtain ⟨peak, hsplit⟩ := Grid.split_single (p.fraction (Sectors.kind sector))
    (((hperm.filter _).length_eq).trans hpeak)
  have hkeys : ((island.map fun c =>
      (c, (paint (Sectors.shape sector) hits).energy c)).map Prod.fst).Nodup := by
    rw [List.map_map]
    exact (List.map_id island).symm ▸ hperm.nodup_iff.mpr (Grid.nodup_cellsOf _ _)
  generalize hraw : Grid.cluster (island.map fun c =>
    (c, (paint (Sectors.shape sector) hits).energy c)) peak false = raw at hsplit
  have hall : hits ⊆ (toCluster hits raw).hits := by
    intro hit hh
    have hcell : hit.site.cell ∈ island :=
      hperm.mem_iff.mpr (Grid.mem_cellsOf.mpr (hplaced.inside hit hh))
    rw [← hraw, (hits_toCluster_perm hkeys).mem_iff, Grid.cluster, List.filterMap_map,
      List.mem_filterMap]
    refine ⟨hit.site.cell, hcell, ?_⟩
    rw [Function.comp_apply, measuredAt, hitAt?_cell hplaced.cells hh,
      energy_paint hplaced hh (hpos hit hh)]
    rfl
  have hinhabited : (toCluster hits raw).isEmpty = false := by
    obtain ⟨hit, hh⟩ := List.exists_mem_of_ne_nil hits hne
    exact List.isEmpty_eq_false_iff.mpr (List.ne_nil_of_mem (hall hh))
  refine ⟨alone (toCluster hits raw), ?_, hall⟩
  rw [clusters_of_sector s p hne hsector, sectorGrid, painted_of_sector hsector hplaced, hislands,
    List.flatMap_singleton, islandClusters, sectorGrid, painted_of_sector hsector hplaced, hsplit,
    List.map_singleton, List.filter_singleton, hinhabited]
  rfl

/-- Two crystals of a row, with one between them that was not hit. -/
def gapped : List (BlockHit Float32) :=
  [(Sectors.crystal 10 10).hit 400, (Sectors.crystal 10 12).hit 5]

def everyBlock : CaloSettings Float32 := { CaloSettings.standard with minBlockEnergy := 0 }

theorem placed_gapped : Placed (Sectors.shape 0) gapped := ⟨by decide, by decide⟩

theorem peaks_gapped : ((paint (Sectors.shape 0) gapped).cells.filter
    ((paint (Sectors.shape 0) gapped).isPeak (gridSettings everyBlock))).length = 1 := by
  have hpeaks : (paint (Sectors.shape 0) gapped).cells.filter
      ((paint (Sectors.shape 0) gapped).isPeak (gridSettings everyBlock)) =
        (paint (Sectors.shape 0) gapped).cells.filter (· == (10, 10)) := by
    apply List.filter_congr
    intro c hc
    by_cases hmiddle : c = (10, 10)
    · rw [hmiddle]
      decide +kernel
    · have hlow : (paint (Sectors.shape 0) gapped).energy c < everyBlock.minCenterEnergy := by
        rcases energy_paint_cases placed_gapped (by decide +kernel) (Grid.mem_cellsOf.mp hc) with
          ⟨hit, hh, hcell, henergy⟩ | ⟨_, henergy⟩
        · rw [henergy]
          have hsecond : hit = (Sectors.crystal 10 12).hit 5 := by
            simp only [gapped, List.mem_cons, List.not_mem_nil, or_false] at hh
            apply hh.resolve_left
            rintro rfl
            exact hmiddle hcell.symm
          rw [hsecond]
          decide +kernel
        · rw [henergy]
          decide +kernel
      simp [Grid.isPeak, gridSettings, hlow, hmiddle]
  rw [hpeaks]
  decide +kernel

/-- The two crystals come together in a cluster with nothing hit between them. -/
theorem gap_bridged_without_hit :
    (∀ hit ∈ gapped, hit.site.sector = 0) ∧ Placed (Sectors.shape 0) gapped ∧
      (∀ hit ∈ gapped, 0 < hit.energy) ∧
      ∃ c ∈ clusters everyBlock .standard gapped, ∃ x ∈ c.hits, ∃ y ∈ c.hits,
        ∀ a ∈ gapped, ∀ b ∈ gapped, a.site = x.site → b.site = y.site →
          ¬ Joined (Island.neighboring everyBlock.corners) gapped a b := by
  have hsector : ∀ hit ∈ gapped, hit.site.sector = 0 := by decide
  have hpos : ∀ hit ∈ gapped, 0 < hit.energy := by decide +kernel
  obtain ⟨c, hclusters, hall⟩ := clusters_of_low_threshold (s := everyBlock) (by decide +kernel)
    .standard hsector placed_gapped hpos peaks_gapped (by simp [gapped])
  refine ⟨hsector, placed_gapped, hpos, c, by simp [hclusters],
    (Sectors.crystal 10 10).hit 400, hall (by simp [gapped]),
    (Sectors.crystal 10 12).hit 5, hall (by simp [gapped]), ?_⟩
  have hunlinked : ∀ a b, ¬ Linked (Island.neighboring everyBlock.corners) gapped a b := by
    have hapart : ∀ a ∈ gapped, ∀ b ∈ gapped,
        Cell.isNeighbor everyBlock.corners a.site.cell b.site.cell = false := by decide
    rintro a b ⟨ha, hb, hab | hba⟩
    · exact absurd hab (by rw [Island.neighboring, hapart a ha b hb]; simp)
    · exact absurd hba (by rw [Island.neighboring, hapart b hb a ha]; simp)
  intro a _ b _ hax hby path
  obtain rfl : a = b := path.mem_of_closed (fun x y _ link => absurd link (hunlinked x y)) rfl
  exact absurd (hax.symm.trans hby) (by decide)

end Primex

end ShowerTrack
