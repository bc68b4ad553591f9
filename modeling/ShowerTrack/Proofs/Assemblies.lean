import Mathlib
import ShowerTrack.Calorimeter.Sectors
import ShowerTrack.Proofs.Foremost

/-!
# Assemblies

A cluster is put together step by step: hits are added, clusters that were put together elsewhere
are merged in, empty ones too, and leakage and flags are noted on the way. In whatever tree of
steps this is done, the cluster lists the hits in the order in which they came, and its center is
the first of the strongest hits. In exact arithmetic its energy is the sum of theirs.
-/

set_option autoImplicit false

namespace ShowerTrack

inductive Assembly (α : Type) where
  | empty
  | add (cluster : Assembly α) (hit : BlockHit α)
  | merge (cluster other : Assembly α)
  | mark (cluster : Assembly α) (leakage : α) (flag : Flag)

namespace Assembly

variable {α : Type}

def hits : Assembly α → List (BlockHit α)
  | empty => []
  | add a h => a.hits ++ [h]
  | merge a b => a.hits ++ b.hits
  | mark a _ _ => a.hits

def marks : Assembly α → List (α × Flag)
  | empty => []
  | add a _ => a.marks
  | merge a b => a.marks ++ b.marks
  | mark a leakage flag => a.marks ++ [(leakage, flag)]

section Build

variable [Scalar α]

def build : Assembly α → BlockCluster α
  | empty => .empty
  | add a h => a.build.add h
  | merge a b => a.build.merge b.build
  | mark a leakage flag => { a.build with leakage := a.build.leakage + leakage }.setFlag flag

theorem hits_build (a : Assembly α) : a.build.hits = a.hits := by
  induction a with
  | empty => rfl
  | add a h ih => rw [build, BlockCluster.add, ih, hits]
  | merge a b iha ihb => rw [build, BlockCluster.merge, iha, ihb, hits]
  | mark a leakage flag ih => exact ih

theorem isEmpty_build (a : Assembly α) : a.build.isEmpty = a.hits.isEmpty := by
  rw [BlockCluster.isEmpty, hits_build]

theorem test_build (a : Assembly α) (b : Flag) :
    a.build.flags.test b = a.marks.any fun m => m.2 = b := by
  induction a with
  | empty => simp [build, BlockCluster.empty, Flags.empty, Flags.test, marks]
  | add a h ih => exact ih
  | merge a c iha ihc =>
    rw [build, BlockCluster.merge, Flags.test_union, iha, ihc, marks, List.any_append]
  | mark a leakage flag ih =>
    rw [build, BlockCluster.setFlag, Flags.test_set, ih, marks, List.any_append]
    simp

/-- A cluster without hits has the center that it began with, which has no energy. -/
theorem center_of_no_hits {a : Assembly α} (h : a.hits = []) : a.build.center = default := by
  induction a with
  | empty => rfl
  | add a hit _ => simp [hits] at h
  | merge a b iha ihb =>
    obtain ⟨ha, hb⟩ := List.append_eq_nil_iff.mp h
    have hempty : a.build.isEmpty = true := by
      rw [isEmpty_build, ha]
      rfl
    rw [build, BlockCluster.merge, BlockCluster.newCenter, hempty, Bool.true_or, if_pos rfl, ihb hb]
  | mark a leakage flag ih => exact ih h

variable [Scalar.Ordered α]

theorem firstHighest_build {a : Assembly α} (hnonneg : ∀ h ∈ a.hits, 0 ≤ h.energy)
    (hne : a.hits ≠ []) : BlockCluster.FirstHighest a.hits a.build.center := by
  induction a with
  | empty => exact absurd rfl hne
  | add a hit ih =>
    by_cases hfirst : a.hits = []
    · have hcenter : (add a hit).build.center = hit := by
        simp [build, BlockCluster.add, BlockCluster.newCenter, isEmpty_build, hfirst]
      rw [hcenter, hits, hfirst]
      exact Ranking.first_singleton _ hit
    · have hhits : a.build.isEmpty = false := by
        rwa [isEmpty_build, List.isEmpty_eq_false_iff]
      exact (ih (fun h hh => hnonneg h (List.mem_append_left _ hh)) hfirst).newCenter hhits hit
  | merge a b iha ihb =>
    have hleft : ∀ h ∈ a.hits, 0 ≤ h.energy := fun h hh => hnonneg h (List.mem_append_left _ hh)
    have hright : ∀ h ∈ b.hits, 0 ≤ h.energy := fun h hh => hnonneg h (List.mem_append_right _ hh)
    have hcenter : (merge a b).build.center = a.build.newCenter b.build.center := rfl
    rw [hcenter, hits]
    by_cases ha : a.hits = []
    · rw [ha, List.nil_append, BlockCluster.newCenter, isEmpty_build, ha]
      exact ihb hright fun hb => hne (by rw [hits, ha, hb]; rfl)
    · have hhits : a.build.isEmpty = false := by
        rwa [isEmpty_build, List.isEmpty_eq_false_iff]
      by_cases hb : b.hits = []
      · -- what has no energy takes the center over from no hit
        have hstrong : ¬ a.build.center.energy < (default : BlockHit α).energy :=
          Scalar.Ordered.not_lt_of_le (hleft _ (Ranking.First.mem (iha hleft ha)))
        rw [hb, List.append_nil, center_of_no_hits hb, BlockCluster.newCenter, hhits,
          Bool.false_or, decide_eq_false hstrong]
        exact iha hleft ha
      · exact (iha hleft ha).append hhits (ihb hright hb) fun k hk =>
          Scalar.Ordered.le_self_right (hright k hk)
  | mark a leakage flag ih => exact ih hnonneg hne

end Build

section Exact

variable [Exact α]

theorem energy_build (a : Assembly α) : a.build.energy = (a.hits.map (·.energy)).sum := by
  induction a with
  | empty => exact Exact.zero_eq
  | add a h ih => simp [build, BlockCluster.add, ih, hits]
  | merge a b iha ihb => simp [build, BlockCluster.merge, iha, ihb, hits]
  | mark a leakage flag ih => exact ih

theorem leakage_build (a : Assembly α) : a.build.leakage = (a.marks.map (·.1)).sum := by
  induction a with
  | empty => exact Exact.zero_eq
  | add a h ih => exact ih
  | merge a b iha ihb => simp [build, BlockCluster.merge, iha, ihb, marks]
  | mark a leakage flag ih => simp [build, BlockCluster.setFlag, ih, marks]

end Exact

structure Keeps [Scalar α] [Scalar.Ordered α] (a : Assembly α) (c : BlockCluster α) : Prop where
  hits : c.hits = a.hits
  center : c.hits ≠ [] → BlockCluster.FirstHighest c.hits c.center
  flags : ∀ b, c.flags.test b = a.marks.any fun m => m.2 = b

/-- Whatever the steps are, the hits come in their order and the first of the strongest is the
center. A merge adds up leakages and joins flags. In exact arithmetic the energy of a cluster is
that of its hits, and its leakage all that was noted. -/
theorem assemblies_keep :
    (∀ {α : Type} [Scalar α] [Scalar.Ordered α] (a : Assembly α),
      (∀ h ∈ a.hits, 0 ≤ h.energy) → Keeps a a.build) ∧
    (∀ {α : Type} [Scalar α] (a b : Assembly α),
      (merge a b).build.leakage = a.build.leakage + b.build.leakage ∧
        (merge a b).build.flags.bits = a.build.flags.bits ||| b.build.flags.bits) ∧
    ∀ {α : Type} [Exact α] (a : Assembly α),
      a.build.energy = (a.build.hits.map (·.energy)).sum ∧
        a.build.leakage = (a.marks.map (·.1)).sum := by
  refine ⟨?_, ?_, ?_⟩
  · intro α _ _ a hnonneg
    refine ⟨hits_build a, ?_, test_build a⟩
    rw [hits_build]
    exact firstHighest_build hnonneg
  · exact fun a b => ⟨rfl, rfl⟩
  · intro α _ a
    rw [hits_build]
    exact ⟨energy_build a, leakage_build a⟩

/-- Two hits that tie for the most energy, merged with empty clusters on both sides. -/
def nested {α : Type} [Scalar α] : Assembly α :=
  merge (merge empty (add empty ((Sectors.crystal 0 0).hit 30)))
    (merge (mark (add (add empty ((Sectors.crystal 0 1).hit 20)) ((Sectors.crystal 0 2).hit 30))
      1.5 .split) empty)

theorem nested_keeps :
    (nested : Assembly Float32).build.center.id = 1001 ∧
      Keeps (nested : Assembly Float32) nested.build ∧
      (nested : Assembly ℝ).build.energy = (nested.build.hits.map (·.energy)).sum :=
  ⟨by decide +kernel, assemblies_keep.1 nested (by decide +kernel), (assemblies_keep.2.2 nested).1⟩

end Assembly

end ShowerTrack
