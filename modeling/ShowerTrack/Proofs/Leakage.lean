import ShowerTrack.Proofs.Checked.Profile
import ShowerTrack.Proofs.Exact

/-!
# Leakage

What the dead blocks around a cluster would have measured is estimated in rounds, all of them from
the cluster as it was formed. Those whose last estimate is above a part of its energy are appended
with their estimates. Taking one in changes the energy and the center, but not the threshold and
not the other estimates, so that the fate of a block does not hang on those before it.
-/

set_option autoImplicit false

namespace ShowerTrack.CaloSettings

variable {α : Type}

section Arithmetic

variable [Scalar α]

def takeIn (c : BlockCluster α) (leak : BlockHit α) : BlockCluster α :=
  ({ c with leakage := c.leakage + leak.energy }.add leak).setFlag .leakCorrected

/-- Recovery takes in what is above the threshold, and nothing else. -/
theorem foldl_recover (threshold : α) (leaks : List (BlockHit α)) (c : BlockCluster α) :
    leaks.foldl (recover threshold) c =
      (leaks.filter fun leak => threshold < leak.energy).foldl takeIn c := by
  have hstep : recover threshold = fun (c : BlockCluster α) leak =>
      if decide (threshold < leak.energy) = true then takeIn c leak else c := by
    funext c leak
    simp only [recover, takeIn, decide_eq_true_eq]
  rw [List.foldl_filter, hstep]

theorem hits_foldl_takeIn (c : BlockCluster α) (leaks : List (BlockHit α)) :
    (leaks.foldl takeIn c).hits = c.hits ++ leaks := by
  induction leaks generalizing c with
  | nil => exact (List.append_nil _).symm
  | cons leak leaks ih =>
    rw [List.foldl_cons, ih]
    simp [takeIn, BlockCluster.setFlag, BlockCluster.add]

theorem energy_foldl_takeIn (c : BlockCluster α) (leaks : List (BlockHit α)) :
    (leaks.foldl takeIn c).energy = (leaks.map (·.energy)).foldl (· + ·) c.energy := by
  induction leaks generalizing c with
  | nil => rfl
  | cons leak leaks ih =>
    rw [List.foldl_cons, ih]
    rfl

theorem leakage_foldl_takeIn (c : BlockCluster α) (leaks : List (BlockHit α)) :
    (leaks.foldl takeIn c).leakage = (leaks.map (·.energy)).foldl (· + ·) c.leakage := by
  induction leaks generalizing c with
  | nil => rfl
  | cons leak leaks ih =>
    rw [List.foldl_cons, ih]
    rfl

theorem flags_foldl_takeIn (c : BlockCluster α) (leaks : List (BlockHit α)) :
    (leaks.foldl takeIn c).flags =
      if leaks.isEmpty then c.flags else c.flags.set .leakCorrected := by
  induction leaks generalizing c with
  | nil => rfl
  | cons leak leaks ih =>
    have hagain : (c.flags.set .leakCorrected).set .leakCorrected =
        c.flags.set .leakCorrected := by
      simp [Flags.set, BitVec.or_assoc]
    rw [List.foldl_cons, ih]
    simp [takeIn, BlockCluster.setFlag, BlockCluster.add, hagain]

structure Gains (grow : α → List α → α) (c : BlockCluster α) (leaks : List (BlockHit α))
    (c' : BlockCluster α) : Prop where
  hits : c'.hits = c.hits ++ leaks
  energy : c'.energy = grow c.energy (leaks.map (·.energy))
  leakage : c'.leakage = grow c.leakage (leaks.map (·.energy))
  deadNeighbor : c'.flags.test .deadNeighbor = true
  leakCorrected : c'.flags.test .leakCorrected = true ↔
    c.flags.test .leakCorrected = true ∨ leaks ≠ []
  otherFlags : ∀ i, i ≠ Flag.deadNeighbor.bit → i ≠ Flag.leakCorrected.bit →
    c'.flags.bits.getLsbD i = c.flags.bits.getLsbD i

theorem gains_foldl_takeIn (c : BlockCluster α) (leaks : List (BlockHit α)) :
    Gains (fun start xs => xs.foldl (· + ·) start) c leaks
      (leaks.foldl takeIn (c.setFlag .deadNeighbor)) := by
  have hflags := flags_foldl_takeIn (c.setFlag .deadNeighbor) leaks
  have hstart : (c.setFlag .deadNeighbor).flags = c.flags.set .deadNeighbor := rfl
  rw [hstart] at hflags
  refine ⟨hits_foldl_takeIn _ _, energy_foldl_takeIn _ _, leakage_foldl_takeIn _ _, ?_, ?_, ?_⟩
  · rw [hflags]
    split
    · rw [Flags.test_set]
      simp
    · rw [Flags.test_set, Flags.test_set]
      simp
  · rw [hflags]
    split
    · rename_i hempty
      rw [Flags.test_set, List.isEmpty_iff.mp hempty]
      simp
    · rename_i hsome
      rw [Flags.test_set]
      simpa using .inr fun hnil => hsome (by rw [hnil]; rfl)
  · intro i hdead hleak
    rw [hflags]
    split
    · simp [Flags.set, BitVec.getLsbD_twoPow, hdead.symm]
    · simp [Flags.set, BitVec.getLsbD_twoPow, hdead.symm, hleak.symm]

theorem estimates_same (p : Profile α) (dead : List (BlockHit α)) (x y energy : α) :
    List.Forall₂ (fun b leak => leak = { b with energy := leak.energy }) dead
      (estimates p dead x y energy) := by
  rw [estimates, List.forall₂_map_right_iff, List.forall₂_same]
  exact fun b _ => rfl

end Arithmetic

section Rounds

variable [Elementary α] (s : CaloSettings α) (p : Profile α) (c : BlockCluster α)

def leakRound (leaks : List (BlockHit α)) : List (BlockHit α) :=
  let (x, y) := s.position c.center (c.hits ++ leaks)
  estimates p leaks x y c.energy

/-- The estimates of the dead blocks after all rounds. At first the shower is at the center. -/
def lastEstimates (dead : List (BlockHit α)) : List (BlockHit α) :=
  (s.leakRound p c)^[s.leakIterations]
    (estimates p dead c.center.place.x c.center.place.y c.energy)

theorem leakEstimates_eq_iterate (dead : List (BlockHit α)) (n : Nat) :
    s.leakEstimates p c dead n = (s.leakRound p c)^[n]
      (estimates p dead c.center.place.x c.center.place.y c.energy) := by
  induction n with
  | zero => rfl
  | succ n ih =>
    -- a round estimates the blocks of the round before, which are the dead ones
    have hblocks : ∀ x y, estimates p (s.leakEstimates p c dead n) x y c.energy =
        estimates p dead x y c.energy := by
      intro x y
      cases n with
      | zero => exact Checked.estimates_estimates _ _ _ _ _ _ _ _
      | succ n => exact Checked.estimates_estimates _ _ _ _ _ _ _ _
    rw [Function.iterate_succ_apply', ← ih]
    exact (hblocks _ _).symm

theorem leakEstimates_same (dead : List (BlockHit α)) (n : Nat) :
    List.Forall₂ (fun b leak => leak = { b with energy := leak.energy }) dead
      (s.leakEstimates p c dead n) := by
  cases n with
  | zero => exact estimates_same p dead _ _ _
  | succ n => exact estimates_same p dead _ _ _

/-- How leakage is recovered. Without dead blocks or without hits nothing happens. Otherwise the
dead blocks whose last estimates are above the threshold are appended, in their order. -/
structure Recovers (grow : α → List α → α) (dead : List (BlockHit α)) (c' : BlockCluster α) :
    Prop where
  unchanged : dead = [] ∨ c.hits = [] → c' = c
  estimated : List.Forall₂ (fun b leak => leak = { b with energy := leak.energy }) dead
    (s.lastEstimates p c dead)
  recovered : dead ≠ [] → c.hits ≠ [] →
    Gains grow c ((s.lastEstimates p c dead).filter fun leak =>
      s.leastLeak * c.energy < leak.energy) c'

theorem recovers_recoverLeakage (dead : List (BlockHit α)) :
    s.Recovers p c (fun start xs => xs.foldl (· + ·) start) dead (s.recoverLeakage p dead c) := by
  have hlast : s.leakEstimates p c dead s.leakIterations = s.lastEstimates p c dead :=
    s.leakEstimates_eq_iterate p c dead s.leakIterations
  refine ⟨?_, hlast ▸ s.leakEstimates_same p c dead s.leakIterations, ?_⟩
  · intro hnone
    have hstop : (dead.isEmpty || c.isEmpty) = true := by
      rcases hnone with hdead | hhits
      · simp [hdead]
      · simp [BlockCluster.isEmpty, hhits]
    rw [recoverLeakage, if_pos hstop]
  · intro hdead hhits
    have hgo : ¬ (dead.isEmpty || c.isEmpty) = true := by
      simp [BlockCluster.isEmpty, hdead, hhits]
    rw [recoverLeakage, if_neg hgo, foldl_recover, hlast]
    exact gains_foldl_takeIn c _

end Rounds

end ShowerTrack.CaloSettings
