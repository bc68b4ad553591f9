import Mathlib
import ShowerTrack.Proofs.Columns
import ShowerTrack.Proofs.Distances

/-!
# Groups of islands

Inside a sector the cells decide which hits belong together, across sectors the distances do.
The groups that are handed to splitting are the components of both relations together.
-/

set_option autoImplicit false

namespace ShowerTrack

theorem nodup_eraseDups {β : Type} [BEq β] [LawfulBEq β] (l : List β) : l.eraseDups.Nodup := by
  match l with
  | [] => exact .nil
  | a :: l =>
    rw [List.eraseDups_cons, List.nodup_cons]
    constructor
    · simp
    · exact nodup_eraseDups (l.filter fun b => !b == a)
termination_by l.length
decreasing_by
  exact Nat.lt_succ_of_le (List.length_filter_le _ _)

section Sectors

variable {α : Type} {hits : List (BlockHit α)}

theorem mem_hitSectors {sector : Nat} :
    sector ∈ hitSectors hits ↔ ∃ hit ∈ hits, hit.site.sector = sector := by
  simp [hitSectors]

theorem nodup_hitSectors (hits : List (BlockHit α)) : (hitSectors hits).Nodup := by
  rw [hitSectors, List.Perm.nodup_iff (List.mergeSort_perm _ _)]
  exact nodup_eraseDups _

theorem mem_inSector {sector : Nat} {hit : BlockHit α} :
    hit ∈ inSector sector hits ↔ hit ∈ hits ∧ hit.site.sector = sector := by
  simp [inSector]

theorem flatMap_inSector_perm (hits : List (BlockHit α)) :
    ((hitSectors hits).flatMap fun sector => inSector sector hits).Perm hits := by
  apply flatMap_filter_perm (nodup_hitSectors hits)
  intro hit hh
  exact mem_hitSectors.mpr ⟨hit, hh, rfl⟩

theorem nodup_cells_inSector (hn : (hits.map fun h => (h.site.sector, h.site.cell)).Nodup)
    (sector : Nat) : ((inSector sector hits).map (·.site.cell)).Nodup := by
  have hpairs : ((inSector sector hits).map fun h => (h.site.sector, h.site.cell)).Nodup :=
    hn.sublist (List.filter_sublist.map _)
  have hsame : ((inSector sector hits).map fun h => (h.site.sector, h.site.cell)) =
      ((inSector sector hits).map (·.site.cell)).map fun c => (sector, c) := by
    rw [List.map_map]
    apply List.map_congr_left
    intro h hh
    rw [(mem_inSector.mp hh).2]
    rfl
  rw [hsame] at hpairs
  exact List.Nodup.of_map _ hpairs

end Sectors

namespace Island

variable {α : Type}

theorem sectorGroups_nil (corners : Bool) :
    sectorGroups corners ([] : List (BlockHit α)) = [] := by
  simp [sectorGroups, chains, connectedWithin, Partition.groups_eq, Partition.discrete,
    Partition.unionAll, relatedPairs, Partition.size]

def sectorBlocks (corners : Bool) (live : List (BlockHit α)) : List (Nat × List (BlockHit α)) :=
  (hitSectors live).flatMap fun sector =>
    (sectorGroups corners (inSector sector live)).map fun group => (sector, group)

theorem sectorBlocks_components (corners : Bool) {live : List (BlockHit α)}
    (hn : (live.map fun h => (h.site.sector, h.site.cell)).Nodup) :
    IsComponents (fun a b => a.site.sector = b.site.sector ∧ neighboring corners a b) live
      ((sectorBlocks corners live).map Prod.snd) := by
  have hsplit : (sectorBlocks corners live).map Prod.snd =
      (hitSectors live).flatMap fun sector => sectorGroups corners (inSector sector live) := by
    rw [sectorBlocks, List.map_flatMap]
    apply List.flatMap_congr
    intro sector _
    rw [List.map_map]
    exact List.map_id _
  rw [hsplit]
  apply IsComponents.of_parts (flatMap_inSector_perm live)
  · intro sector _
    apply (sectorGroups_components corners (nodup_cells_inSector hn sector)).congr
    intro a b
    constructor
    · intro ⟨ha, hb, hab⟩
      have hsector : a.site.sector = b.site.sector :=
        (mem_inSector.mp ha).2.trans (mem_inSector.mp hb).2.symm
      exact ⟨ha, hb, hab.imp (⟨hsector, ·⟩) (⟨hsector.symm, ·⟩)⟩
    · intro ⟨ha, hb, hab⟩
      exact ⟨ha, hb, hab.imp And.right And.right⟩
  · intro k _ l _ a ha b hb hab
    rw [← (mem_inSector.mp ha).2, ← (mem_inSector.mp hb).2]
    rcases hab with hab | hba
    · exact hab.1
    · exact hba.1.symm

theorem sector_of_mem_sectorBlocks {corners : Bool} {live : List (BlockHit α)}
    (hn : (live.map fun h => (h.site.sector, h.site.cell)).Nodup)
    {A : Nat × List (BlockHit α)} (hA : A ∈ sectorBlocks corners live) {a : BlockHit α}
    (ha : a ∈ A.2) : a.site.sector = A.1 := by
  obtain ⟨sector, _, hA⟩ := List.mem_flatMap.mp hA
  obtain ⟨group, hgroup, rfl⟩ := List.mem_map.mp hA
  have hcomponents := sectorGroups_components corners (nodup_cells_inSector hn sector)
  exact (mem_inSector.mp (hcomponents.mem_items hgroup ha)).2

variable [Scalar α]

/-- Whether two hits belong together: on the grid of a common sector by their cells, across
sectors by their distance. -/
def adjoining (corners : Bool) (a b : BlockHit α) : Prop :=
  if a.site.sector = b.site.sector then neighboring corners a b
  else a.isAdjacent corners b = true

theorem adjoining_of_same {corners : Bool} {a b : BlockHit α}
    (h : a.site.sector = b.site.sector) : adjoining corners a b ↔ neighboring corners a b := by
  rw [adjoining, if_pos h]

theorem adjoining_of_ne {corners : Bool} {a b : BlockHit α}
    (h : a.site.sector ≠ b.site.sector) :
    adjoining corners a b ↔ a.isAdjacent corners b = true := by
  rw [adjoining, if_neg h]

theorem touching_iff (corners : Bool) (as bs : List (BlockHit α)) :
    touching corners as bs = true ↔ ∃ a ∈ as, ∃ b ∈ bs, a.isAdjacent corners b = true := by
  simp only [touching, List.any_eq_true]

variable [Scalar.Undirected α]

theorem touching_comm (corners : Bool) (as bs : List (BlockHit α)) :
    touching corners as bs = touching corners bs as := by
  rw [Bool.eq_iff_iff, touching_iff, touching_iff]
  constructor
  · rintro ⟨a, ha, b, hb, hab⟩
    exact ⟨b, hb, a, ha, BlockHit.isAdjacent_comm corners a b ▸ hab⟩
  · rintro ⟨b, hb, a, ha, hba⟩
    exact ⟨a, ha, b, hb, BlockHit.isAdjacent_comm corners b a ▸ hba⟩

theorem adjoining_symm {corners : Bool} {a b : BlockHit α} (h : adjoining corners a b) :
    adjoining corners b a := by
  by_cases hsector : a.site.sector = b.site.sector
  · rw [adjoining_of_same hsector] at h
    rw [adjoining_of_same hsector.symm]
    exact neighboring_symm h
  · rw [adjoining_of_ne hsector] at h
    rw [adjoining_of_ne (Ne.symm hsector), BlockHit.isAdjacent_comm]
    exact h

theorem glue_components (corners : Bool) {live : List (BlockHit α)}
    (hn : (live.map fun h => (h.site.sector, h.site.cell)).Nodup) :
    IsComponents (adjoining corners) live (glue corners (sectorBlocks corners live)) := by
  have hblocks := sectorBlocks_components corners hn
  have hnodup := hblocks.nodup_blocks (List.Nodup.of_map _ hn)
  apply hblocks.glue (connected_components hnodup)
  · intro a b link
    apply Linked.joined
    refine ⟨link.1, link.2.1, link.2.2.imp ?_ ?_⟩
    · intro hab
      exact (adjoining_of_same hab.1).mpr hab.2
    · intro hba
      exact (adjoining_of_same hba.1).mpr hba.2
  · intro A B link
    have htouches : A.1 ≠ B.1 ∧ touching corners A.2 B.2 = true := by
      rcases link.2.2 with h | h
      · simpa using h.2
      · have h : (B.1 != A.1 && touching corners B.2 A.2) = true := h.2
        rw [touching_comm, Bool.and_eq_true, bne_iff_ne] at h
        exact ⟨h.1.symm, h.2⟩
    obtain ⟨a, ha, b, hb, hab⟩ := (touching_iff corners A.2 B.2).mp htouches.2
    have hsector : a.site.sector ≠ b.site.sector := by
      rw [sector_of_mem_sectorBlocks hn link.1 ha, sector_of_mem_sectorBlocks hn link.2.1 hb]
      exact htouches.1
    exact ⟨a, ha, b, hb, hblocks.mem_items (List.mem_map_of_mem link.1) ha,
      hblocks.mem_items (List.mem_map_of_mem link.2.1) hb,
      .inl ((adjoining_of_ne hsector).mpr hab)⟩
  · intro A hA B hB a ha b hb hbA link
    have hab : adjoining corners a b := link.2.2.elim id adjoining_symm
    have hsector : a.site.sector ≠ b.site.sector := by
      intro hsame
      have hneighbors := (adjoining_of_same hsame).mp hab
      exact hbA (hblocks.closed (List.mem_map_of_mem hA) ha
        ⟨link.1, link.2.1, .inl ⟨hsame, hneighbors⟩⟩)
    have htouching : touching corners A.2 B.2 = true :=
      (touching_iff corners A.2 B.2).mpr ⟨a, ha, b, hb, (adjoining_of_ne hsector).mp hab⟩
    rw [sector_of_mem_sectorBlocks hn hA ha, sector_of_mem_sectorBlocks hn hB hb] at hsector
    have hne : A ≠ B := fun h => hsector (congrArg Prod.fst h)
    rcases pair_sublist_of_ne hA hB hne with hsub | hsub
    · refine ⟨hA, hB, .inl ⟨hsub, ?_⟩⟩
      simpa using ⟨hsector, htouching⟩
    · refine ⟨hA, hB, .inr ⟨hsub, ?_⟩⟩
      show (B.1 != A.1 && touching corners B.2 A.2) = true
      rw [touching_comm, Bool.and_eq_true, bne_iff_ne]
      exact ⟨hsector.symm, htouching⟩

/-- The groups are the components of the hits above the threshold, which keep their energies. -/
theorem groups_components (s : CaloSettings α) {hits : List (BlockHit α)}
    (hn : (hits.map fun h => (h.site.sector, h.site.cell)).Nodup) :
    IsComponents (adjoining s.corners) (hits.filter fun h => s.minBlockEnergy ≤ h.energy)
      (groups s hits) :=
  glue_components s.corners (hn.sublist (List.filter_sublist.map _))

/-- Two crystals of one column and a glass block of the next sector beside the lower one. -/
def seam : List (BlockHit Float32) :=
  [⟨1, ⟨.crystal, 20, 20, 0, 20, 0⟩, ⟨.empty, 0, 0, 3⟩, 40⟩,
    ⟨2, ⟨.crystal, 20, 20, 0, 0, 0⟩, ⟨.empty, 0, 1, 3⟩, 60⟩,
    ⟨3, ⟨.glass, 40, 40, 30, -10, 0⟩, ⟨.empty, 1, 1, 3⟩, 80⟩]

theorem seam_groups_components :
    (seam.map fun h => (h.site.sector, h.site.cell)).Nodup ∧
      seam[0].isAdjacent false seam[2] = false ∧
      ∀ g ∈ groups .standard seam, seam[0] ∈ g → seam[2] ∈ g := by
  have hn : (seam.map fun h => (h.site.sector, h.site.cell)).Nodup := by decide
  refine ⟨hn, by decide +kernel, ?_⟩
  intro g hg hfirst
  have hgroups := groups_components (CaloSettings.standard : CaloSettings Float32) hn
  have live : ∀ h ∈ seam, h ∈ seam.filter fun h =>
      (CaloSettings.standard : CaloSettings Float32).minBlockEnergy ≤ h.energy := by
    intro h hh
    simp only [seam, List.mem_cons, List.not_mem_nil, or_false] at hh
    apply List.mem_filter.mpr
    rcases hh with rfl | rfl | rfl
    · exact ⟨by simp [seam], by decide +kernel⟩
    · exact ⟨by simp [seam], by decide +kernel⟩
    · exact ⟨by simp [seam], by decide +kernel⟩
  have hcrystals : adjoining false seam[0] seam[1] := by
    rw [adjoining_of_same (by decide), neighboring]
    decide
  have hglass : adjoining false seam[1] seam[2] := by
    rw [adjoining_of_ne (by decide)]
    decide +kernel
  have hsecond : seam[1] ∈ g := hgroups.closed hg hfirst
    ⟨live _ (List.getElem_mem _), live _ (List.getElem_mem _), .inl hcrystals⟩
  exact hgroups.closed hg hsecond
    ⟨live _ (List.getElem_mem _), live _ (List.getElem_mem _), .inl hglass⟩

end Island

end ShowerTrack
