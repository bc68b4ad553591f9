import ShowerTrack.Proofs.Recovery

/-!
# Room for hits

All clusters that are formed are kept, the rejected ones as they were formed and the accepted ones
with their leakage recovered. The accepted ones become hits in their order as long as there is
room; for each further one the overflow grows by one, and nothing else is lost.
-/

set_option autoImplicit false

namespace ShowerTrack.Calorimeter

variable {α : Type} [Elementary α] (d : Calorimeter α) (s : CaloSettings α) (p : Profile α)

def recovered (c : BlockCluster α) : BlockCluster α :=
  s.recoverLeakage p (d.deadNeighbors c.center.id) c

def calibration (id : Int) : Calibration α := ((d.block? id).map (·.calibration)).getD .none

/-- The hit of a cluster. Recovery may move the center, and it is the new center that is
calibrated. -/
def hitOf (c : BlockCluster α) : CaloHit α :=
  s.reconstruct (d.calibration (d.recovered s p c).center.id) (d.recovered s p c)

section Tally

variable (t : Tally α) {c : BlockCluster α}

theorem tally_rejected (h : s.accepts c = false) :
    d.tally s p t c = { t with clusters := t.clusters ++ [c] } := by
  rw [tally, h, if_neg Bool.false_ne_true]

theorem tally_full (h : s.accepts c = true) (hfull : maxCaloHits ≤ t.hits.length) :
    d.tally s p t c =
      { t with clusters := t.clusters ++ [d.recovered s p c], overflow := t.overflow + 1 } := by
  rw [tally, if_pos h]
  exact if_pos hfull

theorem tally_room (h : s.accepts c = true) (hroom : t.hits.length < maxCaloHits) :
    d.tally s p t c =
      { t with
        clusters := t.clusters ++ [d.recovered s p c]
        hits := t.hits ++ [d.hitOf s p c] } := by
  rw [tally, if_pos h]
  exact if_neg (Nat.not_le.mpr hroom)

end Tally

/-- What has been accepted is a hit or has been counted. -/
theorem balance_foldl_tally (cs : List (BlockCluster α)) (t : Tally α) :
    (cs.foldl (d.tally s p) t).hits.length + (cs.foldl (d.tally s p) t).overflow =
      t.hits.length + t.overflow + (cs.filter s.accepts).length := by
  induction cs generalizing t with
  | nil => rfl
  | cons c cs ih =>
    rw [List.foldl_cons, ih]
    cases haccepts : s.accepts c with
    | false =>
      rw [tally_rejected d s p t haccepts, List.filter_cons_of_neg (by simp [haccepts])]
    | true =>
      rw [List.filter_cons_of_pos haccepts, List.length_cons]
      rcases Nat.lt_or_ge t.hits.length maxCaloHits with hroom | hfull
      · simp only [tally_room d s p t haccepts hroom, List.length_append, List.length_singleton]
        omega
      · simp only [tally_full d s p t haccepts hfull]
        omega

/-- Hits are made of the accepted clusters, in their order, until there is no room. -/
theorem hits_foldl_tally (cs : List (BlockCluster α)) {t : Tally α}
    (h : t.hits.length ≤ maxCaloHits) :
    (cs.foldl (d.tally s p) t).hits = t.hits ++
      ((cs.filter s.accepts).take (maxCaloHits - t.hits.length)).map (d.hitOf s p) := by
  -- on the clusters, for any tally: what shrinks with every hit is the room that is left
  induction cs generalizing t with
  | nil => simp
  | cons c cs ih =>
    rw [List.foldl_cons]
    cases haccepts : s.accepts c with
    | false =>
      rw [tally_rejected d s p t haccepts, List.filter_cons_of_neg (by simp [haccepts])]
      exact ih h
    | true =>
      rw [List.filter_cons_of_pos haccepts]
      rcases Nat.lt_or_ge t.hits.length maxCaloHits with hroom | hfull
      · have hlength : (t.hits ++ [d.hitOf s p c]).length = t.hits.length + 1 := by simp
        have hleft : maxCaloHits - t.hits.length = maxCaloHits - (t.hits.length + 1) + 1 := by
          omega
        rw [tally_room d s p t haccepts hroom, ih (hlength ▸ hroom), hlength, hleft,
          List.take_succ_cons, List.map_cons, List.append_assoc]
        rfl
      · have hnone : maxCaloHits - t.hits.length = 0 := Nat.sub_eq_zero_of_le hfull
        rw [tally_full d s p t haccepts hfull, ih (by exact h), hnone]
        rfl

/-- Whatever the calorimeter holds and however clusters are formed: of the accepted clusters as
many as there is room for become hits, in their order, and the rest is counted. Every cluster is
kept, an accepted one with its leakage recovered and a rejected one as it was formed. -/
theorem hits_and_overflow_of_accepted (form : List (BlockHit α) → List (BlockCluster α)) :
    let formed := form d.measured
    let accepted := formed.filter s.accepts
    let r := d.reconstructBy form s p
    r.hits.length = min accepted.length maxCaloHits ∧
      r.hits.length + r.overflow = accepted.length ∧
      r.hits = (accepted.take maxCaloHits).map (d.hitOf s p) ∧
      r.clusters = formed.map fun c => if s.accepts c then d.recovered s p c else c := by
  intro formed accepted r
  have hhits : r.hits = (accepted.take maxCaloHits).map (d.hitOf s p) :=
    d.hits_foldl_tally s p formed (t := ⟨[], [], 0⟩) (Nat.zero_le _)
  have hbalance : r.hits.length + r.overflow = 0 + 0 + accepted.length :=
    d.balance_foldl_tally s p formed ⟨[], [], 0⟩
  refine ⟨?_, by omega, hhits, d.clusters_foldl_tally s p formed ⟨[], [], 0⟩⟩
  rw [hhits, List.length_map, List.length_take, Nat.min_comm]

end ShowerTrack.Calorimeter
