import ShowerTrack.Proofs.GridClusters
import ShowerTrack.Proofs.IslandGroups

/-!
# Glued clusters

A cluster of a sector lists each of its blocks once. Gluing joins clusters of different sectors
along chains, so that two halves of a split island can come together again through a third
cluster, and only then is a block listed twice.
-/

set_option autoImplicit false

namespace ShowerTrack.Primex

variable {α : Type}

def painted (sector : Nat) (hits : List (BlockHit α)) : List (BlockHit α) :=
  onGrid (Sectors.shape sector) (inSector sector hits)

theorem mem_painted {sector : Nat} {hits : List (BlockHit α)} {hit : BlockHit α}
    (h : hit ∈ painted sector hits) : hit ∈ hits ∧ hit.site.sector = sector :=
  mem_inSector.mp (List.mem_of_mem_filter h)

theorem inSector_of_forall {sector : Nat} {hits : List (BlockHit α)}
    (h : ∀ hit ∈ hits, hit.site.sector = sector) : inSector sector hits = hits := by
  rw [inSector, List.filter_eq_self]
  intro hit hh
  simpa using h hit hh

theorem painted_of_sector {sector : Nat} {hits : List (BlockHit α)}
    (h : ∀ hit ∈ hits, hit.site.sector = sector) (hplaced : Placed (Sectors.shape sector) hits) :
    painted sector hits = hits := by
  rw [painted, inSector_of_forall h, onGrid_eq hplaced.inside]

variable [Scalar α]

def sectorGrid (sector : Nat) (hits : List (BlockHit α)) : Grid α :=
  paint (Sectors.shape sector) (painted sector hits)

def islandClusters (s : CaloSettings α) (p : Profile α) (sector : Nat) (hits : List (BlockHit α))
    (island : List Cell) : List (BlockCluster α) :=
  (((sectorGrid sector hits).split (gridSettings s) (p.fraction (Sectors.kind sector)) island).map
    (toCluster (painted sector hits))).filter (!·.isEmpty)

variable {s : CaloSettings α} {p : Profile α} {hits : List (BlockHit α)}

theorem found_eq (s : CaloSettings α) (p : Profile α) (hits : List (BlockHit α)) :
    found s p hits = (hitSectors hits).flatMap fun sector =>
      ((sectorGrid sector hits).islands (gridSettings s)).flatMap fun island =>
        (islandClusters s p sector hits island).map fun c => (sector, c) := by
  rw [found]
  apply List.flatMap_congr
  intro sector _
  have hclusters : sectorClusters s p sector (inSector sector hits) =
      ((sectorGrid sector hits).islands (gridSettings s)).flatMap
        (islandClusters s p sector hits) := by
    simp only [sectorClusters, Grid.clusters, List.map_flatMap, List.filter_flatMap]
    rfl
  rw [hclusters, List.map_flatMap]

/-- Where a hit in a cluster of an island comes from. -/
theorem origin_of_mem_islandClusters {sector : Nat} {island : List Cell} {c : BlockCluster α}
    (hc : c ∈ islandClusters s p sector hits island) {k : BlockHit α} (hk : k ∈ c.hits) :
    (∃ hit ∈ hits, hit.id = k.id ∧ hit.site = k.site) ∧ k.site.sector = sector ∧
      k.site.cell ∈ island := by
  obtain ⟨raw, hraw, rfl⟩ := List.mem_map.mp (List.mem_of_mem_filter hc)
  obtain ⟨⟨hit, hhit, hid, hsite⟩, hcell⟩ := origin_of_mem_toCluster hk
  obtain ⟨hmem, hsector⟩ := mem_painted hhit
  exact ⟨⟨hit, hmem, hid, hsite⟩, hsite ▸ hsector, (Grid.cells_of_mem_split hraw).subset hcell⟩

theorem nodup_ids_islandClusters (hids : (hits.map (·.id)).Nodup) {sector : Nat}
    {island : List Cell} (hisland : island.Nodup) {c : BlockCluster α}
    (hc : c ∈ islandClusters s p sector hits island) : c.ids.Nodup := by
  obtain ⟨raw, hraw, rfl⟩ := List.mem_map.mp (List.mem_of_mem_filter hc)
  have hpainted : ((painted sector hits).map (·.id)).Nodup :=
    hids.sublist ((List.filter_sublist.trans List.filter_sublist).map _)
  exact nodup_ids_toCluster hpainted ((Grid.cells_of_mem_split hraw).nodup hisland)

theorem nodup_of_mem_islands {g : Grid α} {gs : GridSettings α} :
    (∀ island ∈ g.islands gs, island.Nodup) ∧ (g.islands gs).Pairwise List.Disjoint :=
  List.nodup_flatten.mp (g.nodup_flatten_islands gs)

structure Halves (s : CaloSettings α) (p : Profile α) (hits : List (BlockHit α))
    (a b : Nat × BlockCluster α) : Prop where
  sector : a.1 = b.1
  left : a.2.flags.test .split = true
  right : b.2.flags.test .split = true
  island : ∃ island ∈ (sectorGrid a.1 hits).islands (gridSettings s),
    a.2 ∈ islandClusters s p a.1 hits island ∧ b.2 ∈ islandClusters s p a.1 hits island

theorem islandClusters_split (s : CaloSettings α) (p : Profile α) (sector : Nat)
    (hits : List (BlockHit α)) (island : List Cell) :
    (islandClusters s p sector hits island).Pairwise fun a b =>
      a.flags.test .split = true ∧ b.flags.test .split = true := by
  apply List.Pairwise.filter
  rw [List.pairwise_map]
  apply Grid.split_of_several.imp
  intro a b hab
  rw [flags_toCluster, flags_toCluster, hab.1, hab.2, if_pos rfl, Flags.test_set]
  simp

/-- Clusters of sectors that share a block are halves of one island. -/
theorem halves_of_shared (hids : (hits.map (·.id)).Nodup) :
    (found s p hits).Pairwise fun a b =>
      ¬ List.Disjoint a.2.ids b.2.ids → Halves s p hits a b := by
  have origin : ∀ {sector : Nat} {island : List Cell} {c : BlockCluster α},
      c ∈ islandClusters s p sector hits island → ∀ id ∈ c.ids,
        ∃ hit ∈ hits, hit.id = id ∧ hit.site.sector = sector ∧ hit.site.cell ∈ island := by
    intro sector island c hc id hid
    obtain ⟨k, hk, rfl⟩ := List.mem_map.mp hid
    obtain ⟨⟨hit, hh, hhid, hsite⟩, hsector, hcell⟩ := origin_of_mem_islandClusters hc hk
    exact ⟨hit, hh, hhid, hsite ▸ hsector, hsite ▸ hcell⟩
  -- a shared block gives both clusters one sector and one cell
  have shared : ∀ {k l : Nat} {island other : List Cell} {c d : BlockCluster α},
      c ∈ islandClusters s p k hits island → d ∈ islandClusters s p l hits other →
        ¬ List.Disjoint c.ids d.ids → k = l ∧ ∃ cell, cell ∈ island ∧ cell ∈ other := by
    intro k l island other c d hc hd hshared
    obtain ⟨id, hidc, hidd⟩ : ∃ id, id ∈ c.ids ∧ id ∈ d.ids := by
      simpa [List.Disjoint] using hshared
    obtain ⟨hit, hh, hid, hk, hcell⟩ := origin hc id hidc
    obtain ⟨hit', hh', hid', hl, hcell'⟩ := origin hd id hidd
    obtain rfl := List.inj_on_of_nodup_map hids hh hh' (hid.trans hid'.symm)
    exact ⟨hk.symm.trans hl, hit.site.cell, hcell, hcell'⟩
  rw [found_eq, List.pairwise_flatMap]
  constructor
  · intro sector _
    rw [List.pairwise_flatMap]
    constructor
    · intro island hi
      rw [List.pairwise_map]
      apply (islandClusters_split s p sector hits island).imp_of_mem
      intro c d hc hd hsplit _
      exact ⟨rfl, hsplit.1, hsplit.2, island, hi, hc, hd⟩
    · apply nodup_of_mem_islands.2.imp
      intro island other hdisjoint a ha b hb hshared
      obtain ⟨c, hc, rfl⟩ := List.mem_map.mp ha
      obtain ⟨d, hd, rfl⟩ := List.mem_map.mp hb
      obtain ⟨_, cell, hcell, hcell'⟩ := shared hc hd hshared
      exact absurd hcell' (hdisjoint hcell)
  · apply (List.nodup_iff_pairwise_ne.mp (nodup_hitSectors hits)).imp
    intro k l hkl a ha b hb hshared
    obtain ⟨island, _, ha⟩ := List.mem_flatMap.mp ha
    obtain ⟨other, _, hb⟩ := List.mem_flatMap.mp hb
    obtain ⟨c, hc, rfl⟩ := List.mem_map.mp ha
    obtain ⟨d, hd, rfl⟩ := List.mem_map.mp hb
    exact absurd (shared hc hd hshared).1 hkl

theorem mem_found {m : Nat × BlockCluster α} (hm : m ∈ found s p hits) :
    ∃ island ∈ (sectorGrid m.1 hits).islands (gridSettings s),
      m.2 ∈ islandClusters s p m.1 hits island := by
  rw [found_eq] at hm
  obtain ⟨sector, _, hm⟩ := List.mem_flatMap.mp hm
  obtain ⟨island, hi, hm⟩ := List.mem_flatMap.mp hm
  obtain ⟨c, hc, rfl⟩ := List.mem_map.mp hm
  exact ⟨island, hi, hc⟩

/-- How a cluster is glued together: from clusters of sectors that list each block once. It lists
a block twice just when two of them share it, which are halves of one island then, and joined by
blocks of another sector. -/
structure Glued (s : CaloSettings α) (p : Profile α) (hits : List (BlockHit α))
    (c : BlockCluster α) (members : List (Nat × BlockCluster α)) : Prop where
  part : members.Sublist (found s p hits)
  merged : c = .mergeAll (members.map (·.2))
  once : ∀ m ∈ members, m.2.ids.Nodup
  nodup_iff : c.ids.Nodup ↔ members.Pairwise fun a b => List.Disjoint a.2.ids b.2.ids
  halves : members.Pairwise fun a b => ¬ List.Disjoint a.2.ids b.2.ids → Halves s p hits a b
  crossing : ¬ c.ids.Nodup → c.flags.test .split = true ∧
    ∃ h ∈ c.hits, ∃ k ∈ c.hits, h.site.sector ≠ k.site.sector

theorem clusters_glued (s : CaloSettings α) (p : Profile α) {hits : List (BlockHit α)}
    (hids : (hits.map (·.id)).Nodup) :
    ∀ c ∈ clusters s p hits, ∃ members, Glued s p hits c members := by
  intro c hc
  obtain ⟨members, hmembers, rfl⟩ := List.mem_map.mp hc
  obtain ⟨hsub, hrelated⟩ := connected_group hmembers
  have honce : ∀ m ∈ members, m.2.ids.Nodup := by
    intro m hm
    obtain ⟨island, hi, hcluster⟩ := mem_found (hsub.subset hm)
    exact nodup_ids_islandClusters hids (nodup_of_mem_islands.1 island hi) hcluster
  have hnodup : (BlockCluster.mergeAll (members.map (·.2))).ids.Nodup ↔
      members.Pairwise fun a b => List.Disjoint a.2.ids b.2.ids := by
    rw [BlockCluster.ids, BlockCluster.hits_mergeAll, List.flatMap_map, List.map_flatMap,
      List.nodup_flatMap]
    exact and_iff_right honce
  have hhalves := (halves_of_shared (s := s) (p := p) hids).sublist hsub
  refine ⟨members, hsub, rfl, honce, hnodup, hhalves, ?_⟩
  intro hrepeated
  rw [hnodup, List.pairwise_iff_forall_sublist] at hrepeated
  push Not at hrepeated
  obtain ⟨a, b, hab, hshared⟩ := hrepeated
  have hhalf := List.pairwise_iff_forall_sublist.mp hhalves hab hshared
  constructor
  · rw [BlockCluster.test_mergeAll, List.any_map, List.any_eq_true]
    exact ⟨a, hab.subset (by simp), hhalf.left⟩
  · obtain ⟨m, hm, n, hn, hmn⟩ := hrelated hab.length_le
    rw [Bool.and_eq_true, bne_iff_ne] at hmn
    have hhit : ∀ m ∈ members, ∃ h ∈ (BlockCluster.mergeAll (members.map (·.2))).hits,
        h.site.sector = m.1 := by
      intro m hm
      obtain ⟨island, _, hcluster⟩ := mem_found (hsub.subset hm)
      have hne : m.2.hits ≠ [] := by
        have hfilter := (List.mem_filter.mp hcluster).2
        simpa [BlockCluster.isEmpty] using hfilter
      obtain ⟨h, hh⟩ := List.exists_mem_of_ne_nil m.2.hits hne
      refine ⟨h, ?_, (origin_of_mem_islandClusters hcluster hh).2.1⟩
      rw [BlockCluster.hits_mergeAll, List.flatMap_map]
      exact List.mem_flatMap.mpr ⟨m, hm, hh⟩
    obtain ⟨h, hh, hm⟩ := hhit m hm
    obtain ⟨k, hk, hn⟩ := hhit n hn
    exact ⟨h, hh, k, hk, by rw [hm, hn]; exact hmn.1⟩

/-- Three glass blocks in a row, of which the outer ones are peaks, and a crystal below them. -/
def border : List (BlockHit Float32) :=
  [(Sectors.glassBlock 1 5 14).hit 300, (Sectors.glassBlock 1 5 15).hit 100,
    (Sectors.glassBlock 1 5 16).hit 250, (Sectors.crystal 0 17).hit 60]

/-- Every block stays in both halves of its island. -/
def keepAll : CaloSettings Float32 := { CaloSettings.standard with leastSplit := 0 }

theorem islands_border :
    (sectorGrid 0 border).islands (gridSettings keepAll) = [[(0, 17)]] ∧
      (sectorGrid 1 border).islands (gridSettings keepAll) = [[(5, 14), (5, 15), (5, 16)]] := by
  have hmin : 0 < keepAll.minBlockEnergy := by decide +kernel
  have hpos : ∀ hit ∈ border, 0 < hit.energy := by decide +kernel
  have hpainted : ∀ sector, ∀ hit ∈ painted sector border, 0 < hit.energy := fun sector hit hh =>
    hpos hit (mem_painted hh).1
  constructor
  · have hplaced : Placed (Sectors.shape 0) (painted 0 border) := ⟨by decide, by decide⟩
    exact islands_of_isChain hplaced (hpainted 0) hmin _ (by decide +kernel) (by decide)
      (by decide) (by decide)
  · have hplaced : Placed (Sectors.shape 1) (painted 1 border) := ⟨by decide, by decide⟩
    exact islands_of_isChain hplaced (hpainted 1) hmin _ (by decide +kernel) (by decide)
      (by decide) (by decide)

theorem found_border (p : Profile Float32) : found keepAll p border =
    (islandClusters keepAll p 0 border [(0, 17)]).map (fun c => (0, c)) ++
      (islandClusters keepAll p 1 border [(5, 14), (5, 15), (5, 16)]).map (fun c => (1, c)) := by
  have hsectors : hitSectors border = [0, 1] := by
    have hdistinct : (border.map (·.site.sector)).eraseDups = [1, 0] := by decide +kernel
    rw [hitSectors, hdistinct]
    simp [List.mergeSort]
  rw [found_eq, hsectors]
  simp [islands_border.1, islands_border.2]

theorem exists_repeated : ∃ c ∈ clusters keepAll ⟨#[], #[]⟩ border, ¬ c.ids.Nodup := by
  rw [clusters, found_border]
  decide +kernel

/-- The halves of the glass island both touch the crystal, which glues them again. -/
theorem cluster_repeats_block :
    (border.map fun h => (h.site.sector, h.site.cell)).Nodup ∧
      (∀ h ∈ border, h.site.row < (Sectors.shape h.site.sector).1 ∧
        h.site.column < (Sectors.shape h.site.sector).2) ∧
      ∃ c ∈ clusters keepAll ⟨#[], #[]⟩ border, ¬ c.ids.Nodup :=
  ⟨by decide, by decide, exists_repeated⟩

theorem border_clusters_glued :
    ∃ c ∈ clusters keepAll ⟨#[], #[]⟩ border, ¬ c.ids.Nodup ∧
      ∃ members, Glued keepAll ⟨#[], #[]⟩ border c members := by
  obtain ⟨c, hc, hrepeated⟩ := exists_repeated
  exact ⟨c, hc, hrepeated, clusters_glued keepAll ⟨#[], #[]⟩ (by decide +kernel) c hc⟩

end ShowerTrack.Primex
