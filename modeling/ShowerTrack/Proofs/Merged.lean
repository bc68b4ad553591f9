import Mathlib
import ShowerTrack.Proofs.Foremost
import ShowerTrack.Proofs.Glued

/-!
# Merged clusters

Clusters of different sectors that touch are the edges of a graph over all clusters that the
sectors have. Gluing merges each component of it into one cluster, which takes over the hits, the
flags and the sums of its members in their order, and the center of the strongest one. So no
cluster of a sector is lost, and none is merged twice.
-/

set_option autoImplicit false

namespace ShowerTrack

variable {α : Type} [Scalar α]

def runningSum (xs : List α) : α := xs.foldl (· + ·) 0

theorem runningSum_eq_sum {β : Type} [Exact β] : (runningSum : List β → β) = List.sum := by
  funext xs
  rw [runningSum, Exact.foldl_add_eq, Exact.zero_eq, zero_add]

namespace BlockCluster

structure MergeOf [Scalar.Ordered α] (sum : List α → α) (members : List (BlockCluster α))
    (c : BlockCluster α) : Prop where
  hits : c.hits = members.flatMap (·.hits)
  flags : ∀ i, c.flags.bits.getLsbD i = members.any (·.flags.bits.getLsbD i)
  leakage : c.leakage = sum (members.map (·.leakage))
  energy : c.energy = sum (members.map (·.energy))
  center : FirstHighest (members.map (·.center)) c.center

theorem mergeAll_concat (cs : List (BlockCluster α)) (d : BlockCluster α) :
    mergeAll (cs ++ [d]) = (mergeAll cs).merge d := by
  simp [mergeAll]

theorem isEmpty_mergeAll {cs : List (BlockCluster α)} (hne : cs ≠ [])
    (hcs : ∀ c ∈ cs, c.isEmpty = false) : (mergeAll cs).isEmpty = false := by
  obtain ⟨c, hc⟩ := List.exists_mem_of_ne_nil cs hne
  have hhits := hcs c hc
  rw [isEmpty, List.isEmpty_eq_false_iff] at hhits
  rw [isEmpty, hits_mergeAll, List.isEmpty_eq_false_iff, Ne, List.flatMap_eq_nil_iff]
  exact fun hnil => hhits (hnil c hc)

theorem leakage_mergeAll (cs : List (BlockCluster α)) :
    (mergeAll cs).leakage = runningSum (cs.map (·.leakage)) := by
  induction cs using List.reverseRecOn with
  | nil => rfl
  | append_singleton cs d ih =>
    rw [mergeAll_concat, merge, ih]
    simp [runningSum]

theorem energy_mergeAll (cs : List (BlockCluster α)) :
    (mergeAll cs).energy = runningSum (cs.map (·.energy)) := by
  induction cs using List.reverseRecOn with
  | nil => rfl
  | append_singleton cs d ih =>
    rw [mergeAll_concat, merge, ih]
    simp [runningSum]

variable [Scalar.Ordered α]

theorem firstHighest_mergeAll {cs : List (BlockCluster α)} (hne : cs ≠ [])
    (hcs : ∀ c ∈ cs, c.isEmpty = false) :
    FirstHighest (cs.map (·.center)) (mergeAll cs).center := by
  induction cs using List.reverseRecOn with
  | nil => exact absurd rfl hne
  | append_singleton cs d ih =>
    rw [mergeAll_concat, List.map_append]
    by_cases hfirst : cs = []
    · subst hfirst
      exact Ranking.first_singleton _ d.center
    · have hearlier : ∀ c ∈ cs, c.isEmpty = false := fun c hc => hcs c (List.mem_append_left _ hc)
      exact (ih hfirst hearlier).newCenter (isEmpty_mergeAll hfirst hearlier) d.center

theorem mergeOf_mergeAll {cs : List (BlockCluster α)} (hne : cs ≠ [])
    (hcs : ∀ c ∈ cs, c.isEmpty = false) : MergeOf runningSum cs (mergeAll cs) :=
  ⟨hits_mergeAll cs, getLsbD_mergeAll cs, leakage_mergeAll cs, energy_mergeAll cs,
    firstHighest_mergeAll hne hcs⟩

end BlockCluster

namespace Primex

def Meets (corners : Bool) (found : List (Nat × BlockCluster α)) (i j : Nat) : Prop :=
  ∃ a b, found[i]? = some a ∧ found[j]? = some b ∧ a.1 ≠ b.1 ∧
    ∃ h ∈ a.2.hits, ∃ k ∈ b.2.hits, h.isAdjacent corners k = true

/-- How clusters are glued from those of the sectors: one for each component of those that meet,
in the order of their first members, each merged from its members in their order. -/
structure Assembled [Scalar.Ordered α] (sum : List α → α) (corners : Bool)
    (found : List (Nat × BlockCluster α)) (parts : List (List Nat))
    (clusters : List (BlockCluster α)) : Prop where
  components : IsComponents (Meets corners found) (List.range found.length) parts
  ascending : Partition.Ascending parts
  merged : List.Forall₂ (fun part c =>
    BlockCluster.MergeOf sum ((part.filterMap (found[·]?)).map (·.2)) c) parts clusters

theorem isEmpty_of_mem_found {s : CaloSettings α} {p : Profile α} {hits : List (BlockHit α)}
    {m : Nat × BlockCluster α} (hm : m ∈ found s p hits) : m.2.isEmpty = false := by
  obtain ⟨island, _, hcluster⟩ := mem_found hm
  simpa using (List.mem_filter.mp hcluster).2

section Gluing

variable [Scalar.Undirected α]

/-- The search for related clusters finds those that meet. -/
theorem linked_iff_meets (corners : Bool) (found : List (Nat × BlockCluster α)) (i j : Nat) :
    Linked (RelatedAt (fun a b => a.1 != b.1 && touching corners a.2.hits b.2.hits) found)
      (List.range found.length) i j ↔
        Linked (Meets corners found) (List.range found.length) i j := by
  have hmeets : ∀ i j, RelatedAt
      (fun a b => a.1 != b.1 && touching corners a.2.hits b.2.hits) found i j ↔
        i < j ∧ Meets corners found i j := by
    intro i j
    simp only [RelatedAt, Meets, Bool.and_eq_true, bne_iff_ne, Island.touching_iff]
  have hsymm : ∀ {i j}, Meets corners found i j → Meets corners found j i := by
    rintro i j ⟨a, b, ha, hb, hsectors, h, hh, k, hk, hhk⟩
    exact ⟨b, a, hb, ha, hsectors.symm, k, hk, h, hh, BlockHit.isAdjacent_comm corners h k ▸ hhk⟩
  have hne : ∀ {i j}, Meets corners found i j → i ≠ j := by
    rintro i _ ⟨a, b, ha, hb, hsectors, _⟩ rfl
    exact hsectors (congrArg Prod.fst (Option.some.inj (ha.symm.trans hb)))
  rw [Linked, Linked, hmeets, hmeets]
  apply and_congr_right
  intro _
  apply and_congr_right
  intro _
  constructor
  · exact Or.imp And.right And.right
  · intro h
    have hij : Meets corners found i j := h.elim id hsymm
    exact (hne hij).lt_or_gt.imp (fun hlt => ⟨hlt, hij⟩) fun hgt => ⟨hgt, hsymm hij⟩

variable [Scalar.Ordered α]

theorem glue_assembled (corners : Bool) {found : List (Nat × BlockCluster α)}
    (hfound : ∀ m ∈ found, m.2.isEmpty = false) :
    ∃ parts, Assembled runningSum corners found parts (glue corners found) := by
  obtain ⟨parts, hconnected, hcomponents, hascending⟩ := connected_positions
    (fun a b => a.1 != b.1 && touching corners a.2.hits b.2.hits) found
  have hparts := hcomponents.congr (linked_iff_meets corners found)
  refine ⟨parts, hparts, hascending, ?_⟩
  rw [glue, hconnected, List.map_map, List.forall₂_map_right_iff, List.forall₂_same]
  intro part hpart
  apply BlockCluster.mergeOf_mergeAll
  · obtain ⟨i, hi⟩ := List.exists_mem_of_ne_nil part fun he => hparts.inhabited (he ▸ hpart)
    obtain ⟨m, hm⟩ := exists_getElem?_of_mem_range (hparts.mem_items hpart hi)
    rw [Ne, List.map_eq_nil_iff]
    exact List.ne_nil_of_mem (List.mem_filterMap.mpr ⟨i, hi, hm⟩)
  · intro c hc
    obtain ⟨m, hm, rfl⟩ := List.mem_map.mp hc
    obtain ⟨i, _, hread⟩ := List.mem_filterMap.mp hm
    exact hfound m (List.mem_of_getElem? hread)

end Gluing

/-- The clusters are the components of the clusters of sectors that meet, each merged into one. In
exact arithmetic the energies and the leakages of the members are summed up. -/
theorem clusters_assembled :
    (∀ {α : Type} [Scalar α] [Scalar.Undirected α] [Scalar.Ordered α] (s : CaloSettings α)
      (p : Profile α) (hits : List (BlockHit α)), ∃ parts,
        Assembled runningSum s.corners (found s p hits) parts (clusters s p hits)) ∧
    ∀ {α : Type} [Exact α] (s : CaloSettings α) (p : Profile α) (hits : List (BlockHit α)),
      ∃ parts, Assembled List.sum s.corners (found s p hits) parts (clusters s p hits) := by
  constructor
  · intro α _ _ _ s p hits
    exact glue_assembled s.corners fun m hm => isEmpty_of_mem_found hm
  · intro α _ s p hits
    rw [← runningSum_eq_sum]
    exact glue_assembled s.corners fun m hm => isEmpty_of_mem_found hm

/-- The halves of a glass island with the crystal that glues them, and a crystal that touches a
glass block, in exact arithmetic. -/
theorem border_clusters_assembled :
    (∃ parts, Assembled runningSum false (found keepAll ⟨#[], #[]⟩ border) parts
      (clusters keepAll ⟨#[], #[]⟩ border)) ∧
    let pair : List (BlockHit ℝ) :=
      [(Sectors.glassBlock 1 5 15).hit 100, (Sectors.crystal 0 17).hit 60]
    ∃ parts, Assembled List.sum false (found .standard ⟨#[], #[]⟩ pair) parts
      (clusters .standard ⟨#[], #[]⟩ pair) :=
  ⟨clusters_assembled.1 keepAll ⟨#[], #[]⟩ border, clusters_assembled.2 .standard ⟨#[], #[]⟩ _⟩

end Primex

end ShowerTrack
