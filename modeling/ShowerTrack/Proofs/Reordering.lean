import ShowerTrack.Calorimeter.State
import ShowerTrack.Proofs.IslandGroups
import ShowerTrack.Proofs.Painted

/-!
# Reordering

Sectors are listed in ascending order, the hits of a sector are sorted by column and row or
painted on its grid, and in every cell there is one hit at most. So neither island method sees the
order of the hits.
-/

set_option autoImplicit false

namespace ShowerTrack

variable {α : Type} {hits others : List (BlockHit α)}

theorem hitSectors_of_perm (h : hits.Perm others) : hitSectors hits = hitSectors others := by
  have hsectors : (hits.map (·.site.sector)).eraseDups.Perm
      (others.map (·.site.sector)).eraseDups := by
    rw [List.perm_ext_iff_of_nodup (nodup_eraseDups _) (nodup_eraseDups _)]
    intro sector
    rw [List.mem_eraseDups, List.mem_eraseDups]
    exact (h.map _).mem_iff
  exact mergeSort_key_of_perm id (by rw [List.map_id]; exact nodup_eraseDups _) hsectors

theorem inSector_of_perm (h : hits.Perm others) (sector : Nat) :
    (inSector sector hits).Perm (inSector sector others) :=
  h.filter _

namespace Island

theorem sectorGroups_of_perm (corners : Bool) (hn : (hits.map (·.site.cell)).Nodup)
    (h : hits.Perm others) : sectorGroups corners hits = sectorGroups corners others := by
  have hsort : hits.mergeSort columnOrder = others.mergeSort columnOrder := by
    apply mergeSort_eq_of_perm columnOrder_trans columnOrder_total _ h
    intro a ha b hb hab hba
    rw [columnOrder_iff] at hab hba
    apply List.inj_on_of_nodup_map hn ha hb
    rw [Site.cell, Site.cell, Prod.mk.injEq]
    omega
  rw [sectorGroups, chains, hsort, sectorGroups, chains]

variable [Scalar α]

/-- The groups depend on the hits alone, down to the order of the hits in each. -/
theorem groups_of_perm (s : CaloSettings α)
    (hn : (hits.map fun h => (h.site.sector, h.site.cell)).Nodup) (h : hits.Perm others) :
    groups s hits = groups s others := by
  have hlive : (Primex.live s hits).Perm (Primex.live s others) := h.filter _
  have hcells : ((Primex.live s hits).map fun h => (h.site.sector, h.site.cell)).Nodup :=
    hn.sublist (List.filter_sublist.map _)
  have hgroups : ∀ hits : List (BlockHit α), groups s hits =
      glue s.corners (sectorBlocks s.corners (Primex.live s hits)) := fun _ => rfl
  rw [hgroups, hgroups, sectorBlocks, sectorBlocks, hitSectors_of_perm hlive]
  congr 1
  apply List.flatMap_congr
  intro sector _
  rw [sectorGroups_of_perm s.corners (nodup_cells_inSector hcells sector)
    (inSector_of_perm hlive sector)]

end Island

namespace Primex

/-- A cell holds one hit at most, so that the order of the hits in it does not matter. -/
theorem inCell_of_perm (hn : (hits.map (·.site.cell)).Nodup) (h : hits.Perm others) (cell : Cell) :
    hits.filter (·.site.cell == cell) = others.filter (·.site.cell == cell) := by
  apply eq_of_perm_of_alike (h.filter _)
  intro a ha b hb
  rw [List.mem_filter, beq_iff_eq] at ha hb
  exact List.inj_on_of_nodup_map hn ha.1 hb.1 (ha.2.trans hb.2.symm)

theorem hitAt?_of_perm (hn : (hits.map (·.site.cell)).Nodup) (h : hits.Perm others) :
    hitAt? hits = hitAt? others := by
  funext cell
  rw [hitAt?, hitAt?, ← List.head?_filter, ← List.head?_filter, List.filter_reverse,
    List.filter_reverse, inCell_of_perm hn h cell]

variable [Scalar α]

theorem paint_of_perm (shape : Nat × Nat) (hn : (hits.map (·.site.cell)).Nodup)
    (h : hits.Perm others) : paint shape hits = paint shape others := by
  simp only [paint, inCell_of_perm hn h]

theorem toCluster_of_perm (hn : (hits.map (·.site.cell)).Nodup) (h : hits.Perm others) :
    toCluster hits = toCluster others := by
  funext raw
  simp only [toCluster, hitAt?_of_perm hn h]

theorem sectorClusters_of_perm (s : CaloSettings α) (p : Profile α) (sector : Nat)
    (hn : (hits.map (·.site.cell)).Nodup) (h : hits.Perm others) :
    sectorClusters s p sector hits = sectorClusters s p sector others := by
  have hgrid : (onGrid (Sectors.shape sector) hits).Perm (onGrid (Sectors.shape sector) others) :=
    h.filter _
  have hcells : ((onGrid (Sectors.shape sector) hits).map (·.site.cell)).Nodup :=
    hn.sublist (List.filter_sublist.map _)
  rw [sectorClusters, paint_of_perm _ hcells hgrid, toCluster_of_perm hcells hgrid,
    sectorClusters]

theorem found_of_perm (s : CaloSettings α) (p : Profile α)
    (hn : (hits.map fun h => (h.site.sector, h.site.cell)).Nodup) (h : hits.Perm others) :
    found s p hits = found s p others := by
  rw [found, found, hitSectors_of_perm h]
  apply List.flatMap_congr
  intro sector _
  rw [sectorClusters_of_perm s p sector (nodup_cells_inSector hn sector)
    (inSector_of_perm h sector)]

end Primex

/-- The clusters of both island methods are the same for every order of the hits, and whatever
clusters a calorimeter held before. -/
theorem clusters_of_perm [Elementary α] (s : CaloSettings α) (p : Profile α)
    (hn : (hits.map fun h => (h.site.sector, h.site.cell)).Nodup) (h : hits.Perm others) :
    Island.clusters s p hits = Island.clusters s p others ∧
      Primex.clusters s p hits = Primex.clusters s p others ∧
      ∀ (d : Calorimeter α) (held : List (BlockCluster α)),
        { d with clusters := held }.reconstruct s p = d.reconstruct s p := by
  refine ⟨?_, ?_, ?_⟩
  · rw [Island.clusters, Island.groups_of_perm s hn h, Island.clusters]
  · rw [Primex.clusters, Primex.found_of_perm s p hn h, Primex.clusters]
  · intro d held
    rfl

theorem clusters_of_reversed_seam :
    (Island.seam.map fun h => (h.site.sector, h.site.cell)).Nodup ∧
      Island.seam.Perm Island.seam.reverse ∧
      Island.clusters .standard ⟨#[], #[]⟩ Island.seam =
        Island.clusters .standard ⟨#[], #[]⟩ Island.seam.reverse ∧
      Primex.clusters .standard ⟨#[], #[]⟩ Island.seam =
        Primex.clusters .standard ⟨#[], #[]⟩ Island.seam.reverse := by
  have hn : (Island.seam.map fun h => (h.site.sector, h.site.cell)).Nodup := by decide
  have hperm : Island.seam.Perm Island.seam.reverse := (List.reverse_perm Island.seam).symm
  have hclusters := clusters_of_perm .standard ⟨#[], #[]⟩ hn hperm
  exact ⟨hn, hperm, hclusters.1, hclusters.2.1⟩

end ShowerTrack
