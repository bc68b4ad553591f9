import ShowerTrack.Proofs.Centers
import ShowerTrack.Proofs.Nearest

/-!
# Flanks

A window can hold a hit that is stronger than its seed, and then that hit is the center of the
cluster. It never touches the seed. Either it stands on the flank of another shower, from which
stronger and stronger neighbors lead up to a maximum, or it is a maximum that lost its window. So
a cluster is centered on its seed where the window holds nothing but neighbors of the seed, and
where no maximum is stronger than the seed.
-/

set_option autoImplicit false

namespace ShowerTrack.Square

variable {α : Type} [Scalar α]

/-- The second hit is stronger than the first, and so near that the first is no maximum. -/
structure Climbs (hits : List (BlockHit α)) (a b : BlockHit α) : Prop where
  mem : b ∈ hits
  different : b.id ≠ a.id
  stronger : a.energy < b.energy
  near : ¬ cornerAdjacent ≤ a.distance b

theorem mem_maxima_iff {s : CaloSettings α} {hits : List (BlockHit α)} {x : Numbered α} :
    x ∈ maxima s hits ↔ hits[x.2]? = some x.1 ∧ ¬ x.1.energy < s.minCenterEnergy ∧
      isLocalMax hits x.1 = true := by
  rw [maxima, List.mem_filter, List.mem_zipIdx_iff_getElem?]
  simp [isSeed]

section Ascent

variable [Scalar.Ordered α] {hits : List (BlockHit α)} {a b : BlockHit α}

theorem exists_climbs (hnumber : ∀ h ∈ hits, h.energy ≤ h.energy) (ha : a ∈ hits)
    (h : ¬ isLocalMax hits a = true) : ∃ b, Climbs hits a b := by
  simp only [isLocalMax, List.all_eq_true, not_forall, Bool.or_eq_true, beq_iff_eq,
    decide_eq_true_eq, not_or] at h
  obtain ⟨b, hb, ⟨hid, henergy⟩, hnear⟩ := h
  exact ⟨b, hb, hid, Scalar.Ordered.lt_of_not_le (hnumber a ha) (hnumber b hb) henergy, hnear⟩

theorem lt_of_climbs (h : Relation.TransGen (Climbs hits) a b) : a.energy < b.energy := by
  induction h with
  | single hab => exact hab.stronger
  | tail _ hbc ih => exact Scalar.Ordered.lt_trans ih hbc.stronger

/-- Fewer hits are stronger than a stronger hit. -/
theorem length_stronger_lt (hb : b ∈ hits) (h : a.energy < b.energy) :
    (hits.filter fun k => b.energy < k.energy).length <
      (hits.filter fun k => a.energy < k.energy).length := by
  have hfilter : (hits.filter fun k => b.energy < k.energy) =
      (hits.filter fun k => a.energy < k.energy).filter fun k => b.energy < k.energy := by
    rw [List.filter_filter]
    apply List.filter_congr
    intro k _
    by_cases hbk : b.energy < k.energy
    · simp [hbk, Scalar.Ordered.lt_trans h hbk]
    · simp [hbk]
  rw [hfilter, List.length_filter_lt_length_iff_exists]
  exact ⟨b, List.mem_filter.mpr ⟨hb, decide_eq_true h⟩, by simp [Scalar.Ordered.lt_irrefl]⟩

/-- From every hit one comes to a local maximum by climbing. -/
theorem exists_top (hnumber : ∀ h ∈ hits, h.energy ≤ h.energy) (ha : a ∈ hits) :
    ∃ m ∈ hits, isLocalMax hits m = true ∧ (a = m ∨ Relation.TransGen (Climbs hits) a m) := by
  -- each step leaves fewer hits that are stronger
  induction hn : (hits.filter fun k => a.energy < k.energy).length
    using Nat.strong_induction_on generalizing a with
  | _ n ih =>
    by_cases hmax : isLocalMax hits a = true
    · exact ⟨a, ha, hmax, .inl rfl⟩
    · obtain ⟨b, hab⟩ := exists_climbs hnumber ha hmax
      obtain ⟨m, hm, htop, hclimb⟩ :=
        ih _ (hn ▸ length_stronger_lt hab.mem hab.stronger) hab.mem rfl
      refine ⟨m, hm, htop, .inr ?_⟩
      rcases hclimb with rfl | hclimb
      · exact .single hab
      · exact .head hab hclimb

end Ascent

/-- How a hit comes to be stronger than the seed whose window it falls to. It is no seed, and does
not touch this one. Either a climb from the hit leads to a maximum, or the hit is a maximum itself,
which found the window of another one, or opened its own and lost it. -/
structure Outshines (s : CaloSettings α) (hits : List (BlockHit α)) (seed x : Numbered α) :
    Prop where
  free : ∀ other ∈ seeds s hits, other.2 ≠ x.2
  apart : x.1.id = seed.1.id ∨ cornerAdjacent ≤ seed.1.distance x.1
  origin : (∃ m ∈ maxima s hits, Relation.TransGen (Climbs hits) x.1 m.1) ∨
    (x ∈ maxima s hits ∧ ∃ w takers, Fate s hits x w takers ∧ (w = x → takers ≠ []))

structure Centered [Scalar.Ordered α] (s : CaloSettings α) (hits : List (BlockHit α))
    (seed : Numbered α) (c : BlockCluster α) : Prop where
  gathered : ∃ members : List (Numbered α), c.hits = seed.1 :: members.map Prod.fst ∧
    ∀ x ∈ members, hits[x.2]? = some x.1 ∧ (∀ other ∈ seeds s hits, other.2 ≠ x.2) ∧
      inWindow s.squareSize seed.1 x.1 = true ∧
        (seed.1.energy < x.1.energy → Outshines s hits seed x)
  highest : BlockCluster.FirstHighest c.hits c.center
  centered_iff : c.center = seed.1 ↔ ∀ h ∈ c.hits, ¬ seed.1.energy < h.energy
  centered_of_touching : (∀ x ∈ hits.zipIdx, x.2 ≠ seed.2 →
    inWindow s.squareSize seed.1 x.1 = true →
      x.1.id ≠ seed.1.id ∧ ¬ cornerAdjacent ≤ seed.1.distance x.1) → c.center = seed.1
  centered_of_strongest : (∀ m ∈ maxima s hits, ¬ seed.1.energy < m.1.energy) → c.center = seed.1

section Members

variable [Scalar.Ordered α] {s : CaloSettings α} {hits : List (BlockHit α)} {seed x : Numbered α}

theorem outshines_of_stronger (hnumber : ∀ h ∈ hits, h.energy ≤ h.energy)
    (hs : seed ∈ maxima s hits) (hx : hits[x.2]? = some x.1)
    (hfree : ∀ other ∈ seeds s hits, other.2 ≠ x.2) (h : seed.1.energy < x.1.energy) :
    Outshines s hits seed x := by
  have hmem : x.1 ∈ hits := List.mem_of_getElem? hx
  obtain ⟨_, hstrong, hmax⟩ := mem_maxima_iff.mp hs
  have hcenter : ∀ m : BlockHit α, seed.1.energy < m.energy → ¬ m.energy < s.minCenterEnergy :=
    fun m hm hless => hstrong (Scalar.Ordered.lt_trans hm hless)
  refine ⟨hfree, ?_, ?_⟩
  · have hpair := List.all_eq_true.mp hmax x.1 hmem
    rw [Bool.or_eq_true, Bool.or_eq_true, beq_iff_eq, decide_eq_true_eq, decide_eq_true_eq] at hpair
    exact hpair.imp_left fun hside =>
      hside.resolve_right (Scalar.Ordered.not_le_of_lt h)
  · obtain ⟨m, hm, htop, rfl | hclimb⟩ := exists_top hnumber hmem
    · have hxmax : x ∈ maxima s hits := mem_maxima_iff.mpr ⟨hx, hcenter x.1 h, htop⟩
      obtain ⟨w, takers, hfate⟩ := exists_fate hxmax
      refine .inr ⟨hxmax, w, takers, hfate, ?_⟩
      -- a maximum that keeps its own window is a seed
      rintro rfl rfl
      exact hfree w hfate.kept rfl
    · obtain ⟨i, hi⟩ := List.getElem?_of_mem hm
      have hstronger := Scalar.Ordered.lt_trans h (lt_of_climbs hclimb)
      exact .inl ⟨(m, i), mem_maxima_iff.mpr ⟨hi, hcenter m hstronger, htop⟩, hclimb⟩

/-- A hit that outshines a seed shows that some maximum does. -/
theorem Outshines.exists_stronger (h : Outshines s hits seed x)
    (hstronger : seed.1.energy < x.1.energy) : ∃ m ∈ maxima s hits, seed.1.energy < m.1.energy := by
  rcases h.origin with ⟨m, hm, hclimb⟩ | ⟨hx, _⟩
  · exact ⟨m, hm, Scalar.Ordered.lt_trans hstronger (lt_of_climbs hclimb)⟩
  · exact ⟨x, hx, hstronger⟩

end Members

section Clusters

theorem gather_eq_ofHits (size : Nat) (seeds : List (Numbered α)) (hits : List (BlockHit α))
    (w : Numbered α × Nat) : gather size seeds hits w =
      BlockCluster.ofHits (w.1.1 :: (members size seeds hits w.2).map Prod.fst) := by
  have hhits : (gather size seeds hits w).hits =
      w.1.1 :: (members size seeds hits w.2).map Prod.fst := hits_window size seeds hits w
  rw [← hhits, gather, window, BlockCluster.hits_single_addAll]
  rfl

variable [Scalar.Ordered α]

/-- The center of hits put together is the first of them just when none is stronger. -/
theorem center_ofHits_cons_iff (first : BlockHit α) (hs : List (BlockHit α)) :
    (BlockCluster.ofHits (first :: hs)).center = first ↔
      ∀ h ∈ first :: hs, ¬ first.energy < h.energy := by
  constructor
  · intro hcenter h hh
    have hhighest := BlockCluster.firstHighest_ofHits (List.cons_ne_nil first hs)
    rw [hcenter] at hhighest
    exact hhighest.not_beats h hh
  · intro hnone
    apply (BlockCluster.center_single_addAll first hs).2.1
    rintro ⟨head, hhead, h, hh, hstronger⟩
    rw [BlockCluster.hits_single_addAll] at hhead hh
    obtain rfl := Option.some.inj hhead
    exact hnone h hh hstronger

variable {s : CaloSettings α} {hits : List (BlockHit α)} {seed : Numbered α} {pos : Nat}

/-- What is known of a hit that the window of a seed gets. -/
theorem member_cases (hnumber : ∀ h ∈ hits, h.energy ≤ h.energy)
    (hpos : (seeds s hits)[pos]? = some seed) {x : Numbered α}
    (hx : x ∈ members s.squareSize (seeds s hits) hits pos) : hits[x.2]? = some x.1 ∧
      (∀ other ∈ seeds s hits, other.2 ≠ x.2) ∧ inWindow s.squareSize seed.1 x.1 = true ∧
        (seed.1.energy < x.1.energy → Outshines s hits seed x) := by
  have hs := List.mem_of_getElem? hpos
  obtain ⟨hhit, hfree, howner⟩ := mem_members.mp hx
  obtain ⟨other, hother, hinside⟩ := inWindow_of_owner? howner
  obtain rfl := Option.some.inj (hpos.symm.trans hother)
  have hhit := List.mem_zipIdx_iff_getElem?.mp hhit
  exact ⟨hhit, hfree, hinside,
    outshines_of_stronger hnumber (mem_maxima_of_mem_seeds hs) hhit hfree⟩

/-- Where no other hit that its window gets is stronger, the seed is the center. -/
theorem center_of_weak_members (seed : Numbered α) {members : List (Numbered α)}
    (h : ∀ x ∈ members, ¬ seed.1.energy < x.1.energy) :
    (BlockCluster.ofHits (seed.1 :: members.map Prod.fst)).center = seed.1 := by
  rw [center_ofHits_cons_iff, List.forall_mem_cons, List.forall_mem_map]
  exact ⟨Scalar.Ordered.lt_irrefl _, h⟩

theorem centered_gather (hnumber : ∀ h ∈ hits, h.energy ≤ h.energy)
    (hpos : (seeds s hits)[pos]? = some seed) :
    Centered s hits seed (gather s.squareSize (seeds s hits) hits (seed, pos)) := by
  rw [gather_eq_ofHits]
  refine ⟨⟨_, BlockCluster.hits_ofHits _, fun x hx => member_cases hnumber hpos hx⟩, ?_, ?_, ?_, ?_⟩
  · rw [BlockCluster.hits_ofHits]
    exact BlockCluster.firstHighest_ofHits (List.cons_ne_nil _ _)
  · rw [BlockCluster.hits_ofHits]
    exact center_ofHits_cons_iff _ _
  · intro htouching
    apply center_of_weak_members
    intro x hx hstronger
    obtain ⟨hhit, hfree, hinside, houtshines⟩ := member_cases hnumber hpos hx
    have hne := hfree seed (List.mem_of_getElem? hpos)
    obtain ⟨hid, hnear⟩ := htouching x (List.mem_zipIdx_iff_getElem?.mpr hhit) hne.symm hinside
    exact (houtshines hstronger).apart.elim hid hnear
  · intro hstrongest
    apply center_of_weak_members
    intro x hx hstronger
    obtain ⟨_, _, _, houtshines⟩ := member_cases hnumber hpos hx
    obtain ⟨m, hm, hmax⟩ := (houtshines hstronger).exists_stronger hstronger
    exact hstrongest m hm hmax

/-- Every cluster is centered on the first of its strongest hits. That is its seed, unless a hit
that the window holds is stronger. -/
theorem clusters_centered (s : CaloSettings α) (hits : List (BlockHit α)) :
    List.Forall₂ (Centered s (Primex.live s hits)) (seeds s (Primex.live s hits))
      (clusters s hits) := by
  have hnumber : ∀ h ∈ Primex.live s hits, h.energy ≤ h.energy := fun h hh =>
    Scalar.Ordered.le_self_right (of_decide_eq_true (List.mem_filter.mp hh).2)
  rw [clusters_eq_gather]
  conv => arg 2; rw [← List.zipIdx_map_fst 0 (seeds s (Primex.live s hits))]
  rw [List.forall₂_map_left_iff, List.forall₂_map_right_iff, List.forall₂_same]
  intro w hw
  exact centered_gather hnumber (List.mem_zipIdx_iff_getElem?.mp hw)

end Clusters

/-- Three maxima. The second is dropped, as it lies in the window of the first, but it is nearer to
the third, in whose window it lies too. -/
def contested : List (BlockHit Float32) :=
  [(Sectors.crystal 0 17).hit 200, (Sectors.crystal 2 19).hit 150, (Sectors.crystal 2 21).hit 100]

theorem contested_clusters_centered :
    (clusters .standard contested).map (·.center.energy) = [200, 150] ∧
      List.Forall₂ (Centered .standard (Primex.live .standard contested))
        (seeds .standard (Primex.live .standard contested)) (clusters .standard contested) :=
  ⟨by decide +kernel, clusters_centered .standard contested⟩

/-- The dropped maximum falls to the weaker seed and is the center of its cluster. -/
theorem dropped_maximum_centered :
    (∀ hit ∈ contested, Scalar.isNumber hit.energy = true ∧ hit.place.isNumber = true) ∧
      ∃ c ∈ clusters .standard contested, ∃ seed ∈ c.hits.head?, c.center.id ≠ seed.id ∧
        ∃ h ∈ c.hits, seed.energy < h.energy := by
  decide +kernel

end ShowerTrack.Square
