import ShowerTrack.Proofs.Centers
import ShowerTrack.Proofs.Foremost

/-!
# Maxima of islands

How many maxima a group has decides what becomes of it. Two of them do not touch, since one would
have to yield to the other. If any hit is energetic enough, then the first of the most energetic
ones is, and it yields to none. So it is the only maximum where there is one, and the center of
the whole group at the same time.
-/

set_option autoImplicit false

namespace ShowerTrack.Island

variable {α : Type} [Scalar α] {s : CaloSettings α} {group : List (BlockHit α)}

theorem mem_localMaxima_iff {m : BlockHit α × Nat} : m ∈ localMaxima s group ↔
    group[m.2]? = some m.1 ∧ s.minCenterEnergy ≤ m.1.energy ∧
      ∀ (j : Nat) (other : BlockHit α), group[j]? = some other → j ≠ m.2 →
        cornerAdjacent ≤ m.1.distance other ∨ other.energy < m.1.energy ∨
          (Scalar.same other.energy m.1.energy = true ∧ m.2 < j) := by
  have hfilter : m ∈ localMaxima s group ↔
      m ∈ group.zipIdx ∧ isMaximum s group m.1 m.2 = true := List.mem_filter
  rw [hfilter, List.mem_zipIdx_iff_getElem?, isMaximum, Bool.and_eq_true, decide_eq_true_eq,
    List.all_eq_true]
  apply and_congr_right
  intro _
  apply and_congr_right
  intro _
  constructor
  · intro h j other hj hne
    have hall := h (other, j) (List.mem_zipIdx_iff_getElem?.mpr hj)
    simpa [hne, or_assoc] using hall
  · intro h x hx
    by_cases heq : x.2 = m.2
    · simp [heq]
    · have hone := h x.2 x.1 (List.mem_zipIdx_iff_getElem?.mp hx) heq
      simpa [heq, or_assoc] using hone

section Undirected

variable [Scalar.Undirected α] [Scalar.Ordered α]

/-- Of two hits that touch, one yields to the other. -/
theorem localMaxima_apart {m n : BlockHit α × Nat} (hm : m ∈ localMaxima s group)
    (hn : n ∈ localMaxima s group) (hne : m ≠ n) : cornerAdjacent ≤ m.1.distance n.1 := by
  obtain ⟨hmhit, _, hmall⟩ := mem_localMaxima_iff.mp hm
  obtain ⟨hnhit, _, hnall⟩ := mem_localMaxima_iff.mp hn
  have hplace : n.2 ≠ m.2 := by
    intro heq
    rw [heq] at hnhit
    exact hne (Prod.ext (Option.some.inj (hmhit.symm.trans hnhit)) heq.symm)
  rcases hmall n.2 n.1 hnhit hplace with hfar | hm
  · exact hfar
  rcases hnall m.2 m.1 hmhit hplace.symm with hfar | hn
  · rwa [BlockHit.distance_comm]
  have hties : ∀ {a b : α}, Scalar.same a b = true → ¬ a < b ∧ ¬ b < a := by
    intro a b h
    rw [Scalar.same, Bool.and_eq_true, decide_eq_true_eq, decide_eq_true_eq] at h
    exact ⟨Scalar.Ordered.not_lt_of_le h.2, Scalar.Ordered.not_lt_of_le h.1⟩
  -- both would be the stronger one, or both the earlier one of equals
  rcases hm with hm | ⟨hsame, hm⟩
  · rcases hn with hn | ⟨hsame, _⟩
    · exact absurd hn (Scalar.Ordered.lt_asymm hm)
    · exact absurd hm (hties hsame).2
  · rcases hn with hn | ⟨_, hn⟩
    · exact absurd hn (hties hsame).2
    · omega

end Undirected

section Ordered

variable [Scalar.Ordered α] (hnumber : ∀ hit ∈ group, Scalar.isNumber hit.energy = true)

include hnumber

/-- The first of the most energetic hits is a maximum, if any hit is energetic enough. -/
theorem center_is_maximum (h : ∃ hit ∈ group, s.minCenterEnergy ≤ hit.energy) :
    ∃ i, ((BlockCluster.ofHits group).center, i) ∈ localMaxima s group := by
  obtain ⟨hit, hh, hreach⟩ := h
  have hn : ∀ other ∈ group, other.energy ≤ other.energy := fun other ho =>
    of_decide_eq_true (hnumber other ho)
  have hfirst := BlockCluster.firstHighest_ofHits (List.ne_nil_of_mem hh)
  obtain ⟨i, hi, hothers⟩ := Ranking.First.exists_place hfirst
  have htop := hn _ (List.mem_of_getElem? hi)
  have hhighest : ∀ other ∈ group, other.energy ≤ (BlockCluster.ofHits group).center.energy :=
    fun other ho => Scalar.Ordered.le_of_not_lt htop (hn other ho) (hfirst.not_beats other ho)
  refine ⟨i, mem_localMaxima_iff.mpr
    ⟨hi, Scalar.Ordered.le_trans hreach (hhighest hit hh), ?_⟩⟩
  intro j other hj hji
  have ho := List.mem_of_getElem? hj
  right
  by_cases hle : (BlockCluster.ofHits group).center.energy ≤ other.energy
  · right
    refine ⟨?_, ?_⟩
    · rw [Scalar.same, decide_eq_true (hhighest other ho), decide_eq_true hle]
      rfl
    · by_contra hij
      exact (hothers j other hj).1 (by omega) hle
  · exact .inl (Scalar.Ordered.lt_of_not_le (hn other ho) htop hle)

theorem localMaxima_ne_nil_iff :
    localMaxima s group ≠ [] ↔ ∃ hit ∈ group, s.minCenterEnergy ≤ hit.energy := by
  constructor
  · intro hne
    obtain ⟨m, hm⟩ := List.exists_mem_of_ne_nil _ hne
    obtain ⟨hhit, hreach, _⟩ := mem_localMaxima_iff.mp hm
    exact ⟨m.1, List.mem_of_getElem? hhit, hreach⟩
  · intro h
    obtain ⟨i, hi⟩ := center_is_maximum hnumber h
    exact List.ne_nil_of_mem hi

theorem split_eq_nil_iff (p : Profile α) :
    split s p group = [] ↔ ∀ hit ∈ group, ¬ s.minCenterEnergy ≤ hit.energy := by
  rw [← List.length_eq_zero_iff, length_split, List.length_eq_zero_iff, ← not_iff_not,
    ← ne_eq, localMaxima_ne_nil_iff hnumber]
  push Not
  rfl

/-- The only maximum of a group is its center. -/
theorem center_of_one {m : BlockHit α × Nat} (hone : localMaxima s group = [m]) :
    (BlockCluster.ofHits group).center = m.1 := by
  have hsome := (localMaxima_ne_nil_iff hnumber).mp (hone ▸ List.cons_ne_nil m [])
  obtain ⟨i, hi⟩ := center_is_maximum hnumber hsome
  rw [hone, List.mem_singleton] at hi
  rw [← hi]

end Ordered

def PartOf (rows : List (BlockHit α × Array α)) (m : BlockHit α × Nat) (k : Nat)
    (c : BlockCluster α) : Prop :=
  BeginsWith rows m k c ∧ c.flags = Flags.empty.set .split

theorem split_partOf (p : Profile α) (hmany : 2 ≤ (localMaxima s group).length) :
    List.Forall₂ (fun x c => PartOf
      ((sharing p group (localMaxima s group)).shares s.splitIterations) x.1 x.2 c)
        (localMaxima s group).zipIdx (split s p group) := by
  apply forall₂_split p hmany
  intro x hx
  obtain ⟨row, share, others, hrow, hshare, hcluster, _⟩ := exists_part p hx
  rw [hcluster, BlockCluster.setFlag]
  constructor
  · refine ⟨row, share, hrow, hshare, ?_⟩
    rw [BlockCluster.hits_single_addAll]
    rfl
  · rw [BlockCluster.flags_addAll]
    rfl

/-- How the maxima of a group decide its clusters. A group without an energetic hit has none, one
with a single maximum is a cluster as a whole, and any other is split among its maxima. -/
structure DecidedByMaxima (s : CaloSettings α) (p : Profile α) (group : List (BlockHit α)) :
    Prop where
  apart : ∀ m ∈ localMaxima s group, ∀ n ∈ localMaxima s group, m ≠ n →
    cornerAdjacent ≤ m.1.distance n.1
  exist : localMaxima s group ≠ [] ↔ ∃ hit ∈ group, s.minCenterEnergy ≤ hit.energy
  none : split s p group = [] ↔ ∀ hit ∈ group, ¬ s.minCenterEnergy ≤ hit.energy
  below : Scalar.isNumber s.minCenterEnergy = true →
    (split s p group = [] ↔ ∀ hit ∈ group, hit.energy < s.minCenterEnergy)
  one : ∀ m, localMaxima s group = [m] → ∃ c, split s p group = [c] ∧ c.hits = group ∧
    c.center = m.1 ∧ c.flags = .empty
  several : 2 ≤ (localMaxima s group).length →
    List.Forall₂ (fun x c => PartOf
      ((sharing p group (localMaxima s group)).shares s.splitIterations) x.1 x.2 c)
        (localMaxima s group).zipIdx (split s p group)

theorem maxima_decide_clusters [Scalar.Undirected α] [Scalar.Ordered α] (s : CaloSettings α)
    (p : Profile α) {group : List (BlockHit α)}
    (hnumber : ∀ hit ∈ group, Scalar.isNumber hit.energy = true) :
    DecidedByMaxima s p group where
  apart _ hm _ hn hne := localMaxima_apart hm hn hne
  exist := localMaxima_ne_nil_iff hnumber
  none := split_eq_nil_iff hnumber p
  below hmin := by
    rw [split_eq_nil_iff hnumber]
    apply forall₂_congr
    intro hit hh
    constructor
    · exact Scalar.Ordered.lt_of_not_le (of_decide_eq_true (hnumber hit hh))
        (of_decide_eq_true hmin)
    · exact Scalar.Ordered.not_le_of_lt
  one m hone := by
    refine ⟨_, split_single (by rw [hone]; rfl) p, BlockCluster.hits_ofHits group,
      center_of_one hnumber hone, ?_⟩
    rw [BlockCluster.ofHits, BlockCluster.flags_addAll]
    rfl
  several := split_partOf p

/-- Two blocks of a row are maxima; the one between them yields, and so does the crystal. -/
theorem border_decided_by_maxima :
    (∀ hit ∈ Primex.border, Scalar.isNumber hit.energy = true) ∧
      (localMaxima .standard Primex.border).length = 2 ∧
        DecidedByMaxima .standard .standard Primex.border := by
  have hnumber : ∀ hit ∈ Primex.border, Scalar.isNumber hit.energy = true := by decide +kernel
  exact ⟨hnumber, by decide +kernel, maxima_decide_clusters .standard .standard hnumber⟩

end ShowerTrack.Island
