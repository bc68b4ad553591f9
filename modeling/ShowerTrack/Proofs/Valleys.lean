import Mathlib
import ShowerTrack.Proofs.Checked.Strips
import ShowerTrack.Proofs.Exact
import ShowerTrack.Proofs.Stretches

/-!
# Valleys

A run of strips has a valley where the charge drops and later rises, both by more than a threshold.
Splitting at valleys ends, and the parts are stretches of the run that share the strips of the
valleys, with half of the charge in each; no part has a valley left.
-/

set_option autoImplicit false

namespace ShowerTrack

section Valleys

variable {α : Type} [Scalar α]

def Drops (difference : α) (charges : List α) (i : Nat) : Prop :=
  ∃ a ∈ charges[i]?, ∃ b ∈ charges[i + 1]?, difference < a - b

def Rises (difference : α) (charges : List α) (i : Nat) : Prop :=
  ∃ a ∈ charges[i]?, ∃ b ∈ charges[i + 1]?, difference < b - a

def HasValley (difference : α) (charges : List α) : Prop :=
  ∃ i j, i < j ∧ Drops difference charges i ∧ Rises difference charges j

variable {difference : α}

theorem drops_zero (a b : α) (charges : List α) :
    Drops difference (a :: b :: charges) 0 ↔ difference < a - b := by
  simp [Drops]

theorem rises_zero (a b : α) (charges : List α) :
    Rises difference (a :: b :: charges) 0 ↔ difference < b - a := by
  simp [Rises]

theorem hasValley_cons (a b : α) (charges : List α) :
    HasValley difference (a :: b :: charges) ↔
      (difference < a - b ∧ ∃ j, Rises difference (b :: charges) j) ∨
        HasValley difference (b :: charges) := by
  constructor
  · rintro ⟨i, j, hij, hdrop, hrise⟩
    obtain ⟨j, rfl⟩ := Nat.exists_eq_succ_of_ne_zero (by omega : j ≠ 0)
    cases i with
    | zero => exact .inl ⟨(drops_zero a b charges).mp hdrop, j, hrise⟩
    | succ i => exact .inr ⟨i, j, by omega, hdrop, hrise⟩
  · rintro (⟨hdrop, j, hrise⟩ | ⟨i, j, hij, hdrop, hrise⟩)
    · exact ⟨0, j + 1, by omega, (drops_zero a b charges).mpr hdrop, hrise⟩
    · exact ⟨i + 1, j + 1, by omega, hdrop, hrise⟩

/-- Once the charges descend, the search goes on to the first rise. -/
theorem valleyFrom_some_eq_none_iff (low : Nat × α) (i : Nat) (charges : List α) :
    valleyFrom difference (some low) i charges = none ↔
      ∀ j, ¬ Rises difference charges j := by
  induction charges generalizing low i with
  | nil => simp [valleyFrom, Rises]
  | cons a charges ih =>
    cases charges with
    | nil => simp [valleyFrom, Rises]
    | cons b charges =>
      rw [valleyFrom]
      have hcases : (∀ j, ¬ Rises difference (a :: b :: charges) j) ↔
          ¬ difference < b - a ∧ ∀ j, ¬ Rises difference (b :: charges) j := by
        rw [← rises_zero a b charges]
        exact ⟨fun h => ⟨h 0, fun j => h (j + 1)⟩, fun h j => j.casesOn h.1 h.2⟩
      rw [hcases]
      split
      · rename_i hrise
        simp [hrise]
      · rename_i hflat
        rw [ih]
        simp [hflat]

theorem valleyFrom_none_eq_none_iff (i : Nat) (charges : List α) :
    valleyFrom difference none i charges = none ↔ ¬ HasValley difference charges := by
  induction charges generalizing i with
  | nil => simp [valleyFrom, HasValley, Drops]
  | cons a charges ih =>
    cases charges with
    | nil => simp [valleyFrom, HasValley, Rises]
    | cons b charges =>
      rw [valleyFrom, hasValley_cons, not_or, not_and, not_exists]
      by_cases hdrop : difference < a - b
      · simp only [if_pos hdrop]
        rw [valleyFrom_some_eq_none_iff]
        simp only [hdrop, true_imp_iff]
        constructor
        · intro hflat
          refine ⟨hflat, ?_⟩
          rintro ⟨_, j, _, _, hrise⟩
          exact hflat j hrise
        · exact And.left
      · simp only [if_neg hdrop]
        rw [ih]
        simp [hdrop]

theorem valley?_eq_none_iff (hits : List (StripHit α)) :
    valley? difference hits = none ↔ ¬ HasValley difference (hits.map (·.charge)) :=
  valleyFrom_none_eq_none_iff 0 _

/-- No part of a split run has a valley. -/
theorem level_splitRun (hits : List (StripHit α)) :
    ∀ part ∈ splitRun difference hits, ¬ HasValley difference (part.map (·.charge)) := by
  fun_induction splitRun difference hits with
  | case1 hits h =>
    rw [List.forall_mem_singleton]
    exact (valley?_eq_none_iff hits).mp h
  | case2 hits v hv left right =>
    intro part hpart
    exact (List.mem_append.mp hpart).elim (left part) (right part)

end Valleys

section Cuts

variable {α : Type} [Scalar α]

def halveAt (cuts : List Nat) (hits : List (StripHit α)) : List (StripHit α) :=
  hits.mapIdx fun i h => if i ∈ cuts then halve h else h

theorem halveAt_nil (hits : List (StripHit α)) : halveAt [] hits = hits :=
  List.ext_getElem (by simp [halveAt]) (by simp [halveAt])

/-- Cuts of the left part of a run, the cut where it ends, and cuts of the right part. -/
def joinCuts (left : List Nat) (v : Nat) (right : List Nat) : List Nat :=
  left ++ v :: right.map (v + ·)

theorem inside_joinCuts {left right : List Nat} {v : Nat} {hits : List (StripHit α)}
    (hv : 1 ≤ v ∧ v + 1 < hits.length) (hleft : Inside left (leftPart v hits).length)
    (hright : Inside right (rightPart v hits).length) :
    Inside (joinCuts left v right) hits.length := by
  rw [length_leftPart v hits (by omega)] at hleft
  rw [length_rightPart v hits (by omega)] at hright
  constructor
  · rw [joinCuts, List.pairwise_append, List.pairwise_cons, List.pairwise_map]
    refine ⟨hleft.sorted, ⟨?_, hright.sorted.imp fun h => by omega⟩, ?_⟩
    · rw [List.forall_mem_map]
      intro u hu
      have := hright.inner u hu
      omega
    · intro u hu w hw
      have := hleft.inner u hu
      rcases List.mem_cons.mp hw with rfl | hw
      · omega
      · obtain ⟨x, _, rfl⟩ := List.mem_map.mp hw
        omega
  · intro u hu
    rcases List.mem_append.mp hu with hu | hu
    · have := hleft.inner u hu
      omega
    · rcases List.mem_cons.mp hu with rfl | hu
      · omega
      · obtain ⟨x, hx, rfl⟩ := List.mem_map.mp hu
        have := hright.inner x hx
        omega

theorem mem_joinCuts_before {left right : List Nat} {v i : Nat} (hi : i < v) :
    i ∈ joinCuts left v right ↔ i ∈ left := by
  simp only [joinCuts, List.mem_append, List.mem_cons, List.mem_map]
  constructor
  · rintro (hl | rfl | ⟨u, _, rfl⟩)
    · exact hl
    · omega
    · omega
  · exact .inl

theorem mem_joinCuts_behind {left right : List Nat} {v i : Nat} (hleft : ∀ u ∈ left, u < v)
    (hi : 0 < i) : i + v ∈ joinCuts left v right ↔ i ∈ right := by
  simp only [joinCuts, List.mem_append, List.mem_cons, List.mem_map]
  constructor
  · rintro (hl | heq | ⟨u, hu, heq⟩)
    · have := hleft _ hl
      omega
    · omega
    · obtain rfl : u = i := by omega
      exact hu
  · intro hr
    exact .inr (.inr ⟨i, hr, by omega⟩)

theorem leftPart_middle (front back : List (StripHit α)) (h : StripHit α) :
    leftPart front.length (front ++ h :: back) = front ++ [halve h] := by
  simp [leftPart]

theorem rightPart_middle (front back : List (StripHit α)) (h : StripHit α) :
    rightPart front.length (front ++ h :: back) = halve h :: back := by
  simp [rightPart]

/-- The cuts of both parts, with half of the charge at each, are those of the run. -/
theorem halveAt_joinCuts {left right : List Nat} {v : Nat} {hits : List (StripHit α)}
    (hv : v < hits.length) (hleft : ∀ u ∈ left, u < v) (hright : ∀ u ∈ right, 0 < u) :
    (halveAt (joinCuts left v right) hits).take (v + 1) = halveAt left (leftPart v hits) ∧
      (halveAt (joinCuts left v right) hits).drop v = halveAt right (rightPart v hits) := by
  obtain ⟨front, h, back, rfl, rfl⟩ := exists_middle hv
  have hcut : front.length ∈ joinCuts left front.length right := by simp [joinCuts]
  have hfront : front.mapIdx (fun i h => if i ∈ joinCuts left front.length right
      then halve h else h) = halveAt left front := by
    rw [halveAt, List.mapIdx_eq_mapIdx_iff]
    intro i hi
    simp only [mem_joinCuts_before hi]
  have hback : back.mapIdx (fun i h => if i + 1 + front.length ∈ joinCuts left front.length right
      then halve h else h) = back.mapIdx fun i h => if i + 1 ∈ right then halve h else h := by
    rw [List.mapIdx_eq_mapIdx_iff]
    intro i _
    simp only [mem_joinCuts_behind hleft (Nat.succ_pos i)]
  have hhalved : halveAt (joinCuts left front.length right) (front ++ h :: back) =
      halveAt left front ++ halve h ::
        back.mapIdx fun i h => if i + 1 ∈ right then halve h else h := by
    rw [← hfront, ← hback, halveAt, List.mapIdx_append, List.mapIdx_cons, Nat.zero_add, if_pos hcut]
  have hlength : (halveAt left front).length = front.length := List.length_mapIdx
  have hout : front.length ∉ left := fun hmem => Nat.lt_irrefl _ (hleft _ hmem)
  have hstart : 0 ∉ right := fun hmem => Nat.lt_irrefl _ (hright _ hmem)
  constructor
  · have hleftPart : halveAt left (front ++ [halve h]) = halveAt left front ++ [halve h] := by
      simp [halveAt, hout]
    rw [hhalved, leftPart_middle, hleftPart, List.append_cons, List.take_left' (by simp [hlength])]
  · rw [hhalved, List.drop_left' hlength, rightPart_middle]
    simp [halveAt, hstart]

theorem splitRun_eq_stretches (difference : α) (hits : List (StripHit α)) :
    ∃ cuts, Inside cuts hits.length ∧
      splitRun difference hits = stretches (halveAt cuts hits) 0 cuts := by
  fun_induction splitRun difference hits with
  | case1 hits h =>
    refine ⟨[], ⟨.nil, by simp⟩, ?_⟩
    rw [halveAt_nil]
    rfl
  | case2 hits v hv left right =>
    have hbounds := valley_bounds difference hits v hv
    obtain ⟨leftCuts, hleft, hleftRun⟩ := left
    obtain ⟨rightCuts, hright, hrightRun⟩ := right
    refine ⟨joinCuts leftCuts v rightCuts, inside_joinCuts hbounds hleft hright, ?_⟩
    have hlength := length_leftPart v hits (by omega)
    have hbefore : ∀ u ∈ leftCuts, u < v := by
      intro u hu
      have := (hleft.inner u hu).2
      omega
    obtain ⟨htake, hdrop⟩ := halveAt_joinCuts (show v < hits.length by omega) hbefore
      fun u hu => (hright.inner u hu).1
    have hshift := stretches_add (halveAt (joinCuts leftCuts v rightCuts) hits) 0 v rightCuts
    conv_rhs => arg 3; rw [joinCuts]
    rw [stretches_append _ _ _ _ hbefore, htake, ← hleftRun]
    rw [Nat.add_zero] at hshift
    rw [hshift, hdrop, ← hrightRun]

/-- What a run of hits is divided into at cuts. The hit at a cut ends one part and starts the next,
with half of its charge in both; the parts hold the run in its order, and no valley. -/
structure IsDivision (difference : α) (hits : List (StripHit α)) (cuts : List Nat)
    (parts : List (List (StripHit α))) : Prop where
  inside : Inside cuts hits.length
  count : parts.length = cuts.length + 1
  shared : ∀ j v, cuts[j]? = some v → ∃ h ∈ hits[v]?, ∃ p ∈ parts[j]?, ∃ q ∈ parts[j + 1]?,
    p.getLast? = some (halve h) ∧ q.head? = some (halve h)
  once : readOnce parts = halveAt cuts hits
  twice : parts.flatten = hits.zipIdx.flatMap fun x =>
    if x.2 ∈ cuts then [halve x.1, halve x.1] else [x.1]
  long : cuts ≠ [] → ∀ p ∈ parts, 2 ≤ p.length
  level : ∀ p ∈ parts, ¬ HasValley difference (p.map (·.charge))

theorem length_halveAt (cuts : List Nat) (hits : List (StripHit α)) :
    (halveAt cuts hits).length = hits.length := List.length_mapIdx

theorem getElem?_halveAt {cuts : List Nat} (hits : List (StripHit α)) {v : Nat} (hv : v ∈ cuts) :
    (halveAt cuts hits)[v]? = hits[v]?.map halve := by
  rw [halveAt, List.getElem?_mapIdx]
  simp only [if_pos hv]

theorem zipIdx_halveAt (cuts : List Nat) (hits : List (StripHit α)) :
    (halveAt cuts hits).zipIdx =
      hits.zipIdx.map fun x => (if x.2 ∈ cuts then halve x.1 else x.1, x.2) :=
  List.ext_getElem (by simp [halveAt]) (by simp [halveAt])

theorem isDivision_splitRun (difference : α) (hits : List (StripHit α)) :
    ∃ cuts, IsDivision difference hits cuts (splitRun difference hits) := by
  obtain ⟨cuts, hcuts, hrun⟩ := splitRun_eq_stretches difference hits
  have hlength := length_halveAt cuts hits
  have sorted : (0 :: cuts).Pairwise (· < ·) :=
    List.pairwise_cons.mpr ⟨fun v hv => (hcuts.inner v hv).1, hcuts.sorted⟩
  have bounded : ∀ v ∈ cuts, v < (halveAt cuts hits).length := by
    intro v hv
    have := (hcuts.inner v hv).2
    omega
  refine ⟨cuts, hcuts, ?_, ?_, ?_, ?_, ?_, level_splitRun hits⟩
  · rw [hrun, length_stretches]
  · intro j v hv
    have hmem := List.mem_of_getElem? hv
    have hread : hits[v]? = some _ := List.getElem?_eq_getElem (hlength ▸ bounded v hmem)
    obtain ⟨p, q, hp, hq, hlast, hfirst⟩ := stretches_shared _ sorted bounded hv
    rw [getElem?_halveAt hits hmem, hread, Option.map_some] at hlast hfirst
    rw [hrun]
    exact ⟨_, hread, p, hp, q, hq, hlast, hfirst⟩
  · rw [hrun, readOnce_stretches sorted, List.drop_zero]
  · rw [hrun, flatten_stretches sorted bounded, List.drop_zero, zipIdx_halveAt, List.flatMap_map]
    apply List.flatMap_congr
    intro x _
    by_cases hx : x.2 ∈ cuts
    · simp only [if_pos hx]
    · simp only [if_neg hx]
  · intro hne p hp
    rw [hrun] at hp
    obtain ⟨v, hv⟩ := List.exists_mem_of_ne_nil cuts hne
    have := hcuts.inner v hv
    apply length_of_mem_stretches sorted (by omega) _ p hp
    intro u hu
    rw [hlength]
    exact (hcuts.inner u hu).2

end Cuts

section Charges

variable {α : Type} [Exact α]

/-- Splitting a run keeps its charge. -/
theorem sum_totalCharge_splitRun (difference : α) (hits : List (StripHit α)) :
    ((splitRun difference hits).map StripCluster.totalCharge).sum =
      StripCluster.totalCharge hits := by
  fun_induction splitRun difference hits with
  | case1 hits h => exact List.sum_singleton
  | case2 hits v hv left right =>
    have hbounds := valley_bounds difference hits v hv
    obtain ⟨front, h, back, rfl, rfl⟩ := exists_middle (show v < hits.length by omega)
    rw [leftPart_middle] at left
    rw [rightPart_middle] at right
    rw [List.map_append, List.sum_append, leftPart_middle, rightPart_middle, left, right]
    -- the two halves of the strip in the middle are its charge
    simp only [StripCluster.totalCharge, Exact.sum_eq, List.map_append, List.map_cons,
      List.map_nil, List.sum_append, List.sum_cons, List.sum_nil, halve]
    ring

end Charges

/-- What a cluster is replaced by: its parts, of which the first keeps what was measured on it. -/
structure Replaces {α : Type} [Scalar α] (difference : α) (c : StripCluster α)
    (parts : List (StripCluster α)) : Prop where
  kept : ∃ (first : List (StripHit α)) (others : List (List (StripHit α))),
    parts = { c with hits := first } :: others.map .ofHits
  division : ∃ cuts, IsDivision difference c.hits cuts (parts.map (·.hits))

theorem hits_splitCluster {α : Type} [Scalar α] (difference : α) (c : StripCluster α) :
    (∃ (first : List (StripHit α)) (others : List (List (StripHit α))),
      splitCluster difference c = { c with hits := first } :: others.map .ofHits) ∧
      (splitCluster difference c).map (·.hits) = splitRun difference c.hits := by
  obtain ⟨first, others, hrun⟩ :=
    List.exists_cons_of_ne_nil (Checked.splitRun_ne_nil difference c.hits)
  rw [splitCluster, hrun]
  refine ⟨⟨first, others, rfl⟩, ?_⟩
  rw [List.map_cons, List.map_map]
  congr 1
  exact List.map_id others

theorem sum_totalCharge_splitCluster {α : Type} [Exact α] (difference : α) (c : StripCluster α) :
    ((splitCluster difference c).map fun d => StripCluster.totalCharge d.hits).sum =
      StripCluster.totalCharge c.hits := by
  have hmap : ((splitCluster difference c).map fun d => StripCluster.totalCharge d.hits) =
      (splitRun difference c.hits).map StripCluster.totalCharge := by
    rw [← (hits_splitCluster difference c).2, List.map_map]
    rfl
  rw [hmap, sum_totalCharge_splitRun]

/-- Splitting in place ends. It replaces every cluster by the parts between its valleys, and no
charge is lost where halves are exact. -/
theorem splitClusters_replaces {α : Type} [Scalar α] (s : TrackerSettings α)
    (cs : List (StripCluster α)) :
    Checked.splitLoop s.splitDifference cs 0 = some (splitClusters s cs) ∧
    (∃ parts, splitClusters s cs = parts.flatten ∧
      List.Forall₂ (Replaces s.splitDifference) cs parts) ∧
    ∀ {γ : Type} [Exact γ] (difference : γ) (c : StripCluster γ),
      ((splitCluster difference c).map fun d => StripCluster.totalCharge d.hits).sum =
        StripCluster.totalCharge c.hits := by
  refine ⟨?_, ⟨cs.map (splitCluster s.splitDifference), ?_, ?_⟩, ?_⟩
  · have hloop := Checked.splitLoop_eq s.splitDifference [] cs
    rwa [List.nil_append, List.nil_append, List.length_nil] at hloop
  · rw [splitClusters, List.flatMap_def]
  · rw [List.forall₂_map_right_iff, List.forall₂_same]
    intro c _
    obtain ⟨hkept, hhits⟩ := hits_splitCluster s.splitDifference c
    exact ⟨hkept, hhits ▸ isDivision_splitRun s.splitDifference c.hits⟩
  · intro γ _ difference c
    exact sum_totalCharge_splitCluster difference c

end ShowerTrack
