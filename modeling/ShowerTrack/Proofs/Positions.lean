import Mathlib
import ShowerTrack.Calorimeter.Hit
import ShowerTrack.Proofs.Assemblies

/-!
# Positions

In exact arithmetic, and whatever function the logarithm is, the position of a hit is a mean of the
places of blocks around its center with weights that are not negative. The center is one of these
blocks, so that there is at least one, and the position lies between them.
-/

set_option autoImplicit false

namespace ShowerTrack

variable {α : Type}

section Means

variable [Exact α] {ι : Type} {items : List ι} {weight : ι → α}

/-- Where one weighted sum is no more than another, one of its values is no more than the other. -/
theorem exists_le_of_weighted_sum_le (hweight : ∀ i ∈ items, 0 ≤ weight i)
    (hpos : 0 < (items.map weight).sum) {f g : ι → α}
    (hsum : (items.map fun i => weight i * f i).sum ≤ (items.map fun i => weight i * g i).sum) :
    ∃ i ∈ items, f i ≤ g i := by
  by_contra hnone
  have hless : ∀ i ∈ items, g i < f i := fun i hi => not_le.mp fun hle => hnone ⟨i, hi, hle⟩
  obtain ⟨i, hi, hheavy⟩ : ∃ i ∈ items, 0 < weight i :=
    List.exists_lt_of_sum_lt (fun _ => 0) weight (by simpa using hpos)
  have hsums : (items.map fun i => weight i * g i).sum < (items.map fun i => weight i * f i).sum :=
    List.sum_lt_sum _ _
      (fun j hj => mul_le_mul_of_nonneg_left (hless j hj).le (hweight j hj))
      ⟨i, hi, mul_lt_mul_of_pos_left (hless i hi) hheavy⟩
  exact absurd hsum (not_le.mpr hsums)

/-- A weighted mean lies between two of the values. -/
theorem weighted_mean_between (hweight : ∀ i ∈ items, 0 ≤ weight i)
    (hpos : 0 < (items.map weight).sum) (value : ι → α) :
    let mean := (items.map fun i => weight i * value i).sum / (items.map weight).sum
    (∃ i ∈ items, value i ≤ mean) ∧ ∃ i ∈ items, mean ≤ value i := by
  intro mean
  have hbalance : (items.map fun i => weight i * mean).sum =
      (items.map fun i => weight i * value i).sum := by
    rw [List.sum_map_mul_right]
    exact mul_div_cancel₀ _ hpos.ne'
  constructor
  · exact exists_le_of_weighted_sum_le hweight hpos (g := fun _ => mean) hbalance.ge
  · exact exists_le_of_weighted_sum_le hweight hpos (f := fun _ => mean) hbalance.le

end Means

structure BlockCluster.Sound [Exact α] (c : BlockCluster α) : Prop where
  energy : c.energy = (c.hits.map (·.energy)).sum
  center : c.hits ≠ [] → BlockCluster.FirstHighest c.hits c.center

theorem BlockCluster.Sound.center_mem [Exact α] {c : BlockCluster α} (h : c.Sound)
    (hne : c.hits ≠ []) : c.center ∈ c.hits := Ranking.First.mem (h.center hne)

/-- However a cluster is put together, it is sound. -/
theorem Assembly.sound_build [Exact α] {a : Assembly α} (hnonneg : ∀ h ∈ a.hits, 0 ≤ h.energy) :
    a.build.Sound where
  energy := by rw [energy_build, hits_build]
  center := by
    rw [hits_build]
    exact firstHighest_build fun h hh => Exact.zero_eq.trans_le (hnonneg h hh)

theorem Assembly.mem_hits_nested [Scalar α] {h : BlockHit α} (hh : h ∈ nested.hits) :
    h = (Sectors.crystal 0 0).hit 30 ∨ h = (Sectors.crystal 0 1).hit 20 ∨
      h = (Sectors.crystal 0 2).hit 30 := by
  have hhits : (nested : Assembly α).hits = [(Sectors.crystal 0 0).hit 30,
      (Sectors.crystal 0 1).hit 20, (Sectors.crystal 0 2).hit 30] := rfl
  simpa only [hhits, List.mem_cons, List.not_mem_nil, or_false] using hh

theorem Assembly.nested_nonneg [Exact α] :
    ∀ h ∈ (nested : Assembly α).hits, 0 ≤ h.energy := by
  intro h hh
  obtain rfl | rfl | rfl := mem_hits_nested hh
  · exact Nat.cast_nonneg 30
  · exact Nat.cast_nonneg 20
  · exact Nat.cast_nonneg 30

theorem Placement.distance_self [Exact α] (a : Placement α) : a.distance a = 0 := by
  have hzero : Exact.sqrt (0 : α) * Exact.sqrt 0 = 0 := Exact.mul_self_sqrt 0 le_rfl
  have hsquare : a.distance a = Exact.sqrt 0 := by
    simp only [distance, spacing, sub_self, mul_zero, zero_div, add_zero]
    rfl
  rw [hsquare]
  exact mul_self_eq_zero.mp hzero

structure InBox [Exact α] (hits : List (BlockHit α)) (x y : α) : Prop where
  left : ∃ h ∈ hits, h.place.x ≤ x
  right : ∃ h ∈ hits, x ≤ h.place.x
  below : ∃ h ∈ hits, h.place.y ≤ y
  above : ∃ h ∈ hits, y ≤ h.place.y

theorem InBox.of_mem [Exact α] {hits : List (BlockHit α)} {h : BlockHit α} (hh : h ∈ hits) :
    InBox hits h.place.x h.place.y :=
  ⟨⟨h, hh, le_rfl⟩, ⟨h, hh, le_rfl⟩, ⟨h, hh, le_rfl⟩, ⟨h, hh, le_rfl⟩⟩

namespace CaloSettings

variable [ExactElementary α] (s : CaloSettings α)

theorem cornerAdjacent_pos : (0 : α) < cornerAdjacent := by
  unfold cornerAdjacent
  norm_num

/-- The center is in its own core. -/
theorem center_mem_core {center : BlockHit α} {hits : List (BlockHit α)} (h : center ∈ hits) :
    center ∈ core center hits := by
  have hself : center.distance center = 0 := Placement.distance_self _
  rw [core, List.mem_filter, hself]
  exact ⟨h, decide_eq_true cornerAdjacent_pos⟩

theorem logWeight_nonneg (energy total : α) : 0 ≤ s.logWeight energy total := by
  rw [logWeight]
  split
  · exact Exact.zero_eq.ge
  · exact Exact.max_zero_nonneg _

def weightIn (near : List (BlockHit α)) (h : BlockHit α) : α :=
  s.logWeight h.energy (near.map (·.energy)).sum

theorem foldl_add_eq (total : α) (near : List (BlockHit α)) (m : Weighted α) :
    near.foldl (Weighted.add s total) m =
      ⟨m.x + (near.map fun h => s.logWeight h.energy total * h.place.x).sum,
        m.y + (near.map fun h => s.logWeight h.energy total * h.place.y).sum,
        m.weight + (near.map fun h => s.logWeight h.energy total).sum⟩ := by
  induction near generalizing m with
  | nil => simp
  | cons h near ih => simp [ih, Weighted.add, add_assoc]

/-- The position is the weighted mean of the places in the core. -/
theorem position_eq (center : BlockHit α) (hits : List (BlockHit α)) :
    let near := core center hits
    let total := (near.map (s.weightIn near)).sum
    s.position center hits =
      if 0 < total then
        ((near.map fun h => s.weightIn near h * h.place.x).sum / total,
          (near.map fun h => s.weightIn near h * h.place.y).sum / total)
      else (center.place.x, center.place.y) := by
  intro near total
  rw [position, foldl_add_eq]
  simp only [Exact.sum_eq, Exact.zero_eq, zero_add]
  rfl

theorem position_inBox {center : BlockHit α} {hits : List (BlockHit α)} (h : center ∈ hits) :
    InBox (core center hits) (s.position center hits).1 (s.position center hits).2 := by
  rw [position_eq]
  split
  · rename_i hpos
    have hweight : ∀ k ∈ core center hits, 0 ≤ s.weightIn (core center hits) k :=
      fun k _ => s.logWeight_nonneg _ _
    have hx := weighted_mean_between hweight hpos fun k => k.place.x
    have hy := weighted_mean_between hweight hpos fun k => k.place.y
    exact ⟨hx.1, hx.2, hy.1, hy.2⟩
  · exact .of_mem (center_mem_core h)

theorem position_of_no_weight {center : BlockHit α} {hits : List (BlockHit α)}
    (h : ∀ k ∈ core center hits, s.weightIn (core center hits) k = 0) :
    s.position center hits = (center.place.x, center.place.y) := by
  have hzero : ((core center hits).map (s.weightIn (core center hits))).sum = 0 :=
    List.sum_eq_zero fun w hw => by
      obtain ⟨k, hk, rfl⟩ := List.mem_map.mp hw
      exact h k hk
  rw [position_eq, if_neg hzero.not_gt]

/-- The position of a sound cluster with hits lies in the bounding box of its core, which holds the
center and so one hit at least. Without any weight it is the place of the center. -/
theorem reconstruct_in_core (calibration : Calibration α) (c : BlockCluster α) (hsound : c.Sound)
    (hne : c.hits ≠ []) :
    let near := c.hits.filter fun h => c.center.distance h < cornerAdjacent
    let hit := s.reconstruct calibration c
    InBox near hit.x hit.y ∧
      hit.located = near.length ∧ 1 ≤ hit.located ∧ hit.located ≤ hit.blocks ∧
      hit.blocks = c.hits.length ∧
      ((∀ h ∈ near, s.logWeight h.energy (near.map (·.energy)).sum = 0) →
        hit.x = c.center.place.x ∧ hit.y = c.center.place.y) := by
  intro near hit
  have hmem := hsound.center_mem hne
  refine ⟨s.position_inBox hmem, rfl, ?_, List.length_filter_le _ _, rfl, ?_⟩
  · exact List.length_pos_of_mem (center_mem_core hmem)
  · intro hnone
    have hposition : s.position c.center c.hits = (c.center.place.x, c.center.place.y) :=
      s.position_of_no_weight hnone
    exact Prod.mk.inj hposition

/-- The center with a neighbor in its core, and a hit as strong as it outside. -/
theorem reconstruct_nested_in_core :
    let c : BlockCluster ℝ := Assembly.nested.build
    let hit := CaloSettings.standard.reconstruct .none c
    c.Sound ∧ c.hits ≠ [] ∧
      InBox (c.hits.filter fun h => c.center.distance h < cornerAdjacent) hit.x hit.y := by
  intro c hit
  have hsound : c.Sound := Assembly.sound_build Assembly.nested_nonneg
  have hne : c.hits ≠ [] := (Assembly.hits_build Assembly.nested).trans_ne (List.cons_ne_nil _ _)
  exact ⟨hsound, hne, (reconstruct_in_core .standard .none c hsound hne).1⟩

end CaloSettings

end ShowerTrack
