import Mathlib
import ShowerTrack.Proofs.FirstHits
import ShowerTrack.Proofs.Positions
import ShowerTrack.Proofs.StripRuns

/-!
# Positions of strip clusters

Where the strips of a plane lie in their order, a cluster lies between its first and its last strip,
as its position is a mean with the positive charges as weights. Splitting keeps the charges positive
and the strips in order, so that the clusters follow each other on the plane, and without a cut they
carry all of the charge.
-/

set_option autoImplicit false

namespace ShowerTrack

variable {α : Type}

section Parts

variable [Scalar α] {P : StripHit α → Prop} (hhalve : ∀ h, P h → P (halve h))
  {hits : List (StripHit α)} (hall : ∀ h ∈ hits, P h)

include hhalve hall

theorem forall_mem_shared (v : Nat) : ∀ h ∈ ((hits.drop v).head?.map halve).toList, P h := by
  intro h hh
  rw [Option.mem_toList, Option.map_eq_some_iff] at hh
  obtain ⟨k, hk, rfl⟩ := hh
  exact hhalve k (hall k (List.mem_of_mem_drop (List.mem_of_mem_head? hk)))

theorem forall_mem_leftPart (v : Nat) : ∀ h ∈ leftPart v hits, P h := by
  rw [leftPart, List.forall_mem_append]
  constructor
  · intro h hh
    exact hall h (List.mem_of_mem_take hh)
  · exact forall_mem_shared hhalve hall v

theorem forall_mem_rightPart (v : Nat) : ∀ h ∈ rightPart v hits, P h := by
  rw [rightPart, List.forall_mem_append]
  constructor
  · exact forall_mem_shared hhalve hall v
  · intro h hh
    exact hall h (List.mem_of_mem_drop hh)

/-- What holds of the hits of a run, and of a hit with half of its charge, holds in the parts. -/
theorem forall_mem_splitRun {difference : α} :
    ∀ part ∈ splitRun difference hits, ∀ h ∈ part, P h := by
  fun_induction splitRun difference hits with
  | case1 hits hnone =>
    rw [List.forall_mem_singleton]
    exact hall
  | case2 hits v hv left right =>
    rw [List.forall_mem_append]
    exact ⟨left (forall_mem_leftPart hhalve hall v), right (forall_mem_rightPart hhalve hall v)⟩

end Parts

theorem ne_nil_of_mem_splitRun [Scalar α] {difference : α} {hits : List (StripHit α)}
    (hne : hits ≠ []) : ∀ part ∈ splitRun difference hits, part ≠ [] := by
  fun_induction splitRun difference hits with
  | case1 hits hnone =>
    rw [List.forall_mem_singleton]
    exact hne
  | case2 hits v hv left right =>
    have hbounds := valley_bounds difference hits v hv
    have hleft := length_leftPart v hits (by omega)
    have hright := length_rightPart v hits (by omega)
    rw [List.forall_mem_append]
    constructor
    · exact left (List.ne_nil_of_length_pos (by omega))
    · exact right (List.ne_nil_of_length_pos (by omega))

/-- No part is empty or longer than all hits together. -/
theorem size_of_mem_splitClusters [Scalar α] (s : TrackerSettings α)
    {hits : List (StripHit α)} (hn : (hits.map (·.strip)).Nodup) :
    ∀ c ∈ splitClusters s (groupStrips hits), 1 ≤ c.size ∧ c.size ≤ hits.length := by
  intro c hc
  have hruns := groupStrips_areRuns hn
  obtain ⟨run, hrun, hpart⟩ := List.mem_flatMap.mp hc
  have hpart := hits_mem_splitRun hpart
  have hsize := (strips_of_mem_splitRun hpart).length_le
  have hwhole : run.hits.length ≤ hits.length := by
    rw [← hruns.perm.length_eq, List.flatMap_def]
    exact (List.sublist_flatten_of_mem (List.mem_map_of_mem hrun)).length_le
  rw [List.length_map, List.length_map] at hsize
  constructor
  · exact List.length_pos_of_ne_nil (ne_nil_of_mem_splitRun (hruns.inhabited run hrun) _ hpart)
  · exact hsize.trans hwhole

section Charges

variable [Exact α]

theorem halve_pos {h : StripHit α} (hpos : 0 < h.charge) : 0 < (halve h).charge :=
  div_pos hpos (Nat.cast_pos.mpr Nat.two_pos)

theorem totalCharge_eq (hits : List (StripHit α)) :
    StripCluster.totalCharge hits = (hits.map (·.charge)).sum := Exact.sum_eq _

theorem totalCharge_flatMap (cs : List (StripCluster α)) :
    StripCluster.totalCharge (cs.flatMap (·.hits)) =
      (cs.map fun c => StripCluster.totalCharge c.hits).sum := by
  induction cs with
  | nil => exact Exact.sum_eq []
  | cons c cs ih =>
    rw [List.flatMap_cons, List.map_cons, List.sum_cons, ← ih, totalCharge_eq, totalCharge_eq,
      totalCharge_eq, List.map_append, List.sum_append]

/-- Grouping and splitting keep the charge of the hits. -/
theorem sum_totalCharge_splitClusters (s : TrackerSettings α) (hits : List (StripHit α)) :
    ((splitClusters s (groupStrips hits)).map fun c => StripCluster.totalCharge c.hits).sum =
      (hits.map (·.charge)).sum := by
  have hsplit : ∀ cs : List (StripCluster α),
      ((splitClusters s cs).map fun c => StripCluster.totalCharge c.hits).sum =
        (cs.map fun c => StripCluster.totalCharge c.hits).sum := by
    intro cs
    induction cs with
    | nil => rfl
    | cons c cs ih =>
      have hcons : splitClusters s (c :: cs) =
          splitCluster s.splitDifference c ++ splitClusters s cs := List.flatMap_cons
      rw [hcons, List.map_append, List.sum_append, ih, sum_totalCharge_splitCluster, List.map_cons,
        List.sum_cons]
  rw [hsplit, ← totalCharge_flatMap, flatMap_hits_groupStrips, totalCharge_eq]
  exact ((List.mergeSort_perm hits _).map _).sum_eq

theorem meanPosition_eq {hits : List (StripHit α)} (hpos : 0 < (hits.map (·.charge)).sum) :
    StripCluster.meanPosition hits =
      (hits.map fun h => h.charge * h.position).sum / (hits.map (·.charge)).sum := by
  have hzero : @OfNat.ofNat α 0 (Scalar.instOfNat 0) < StripCluster.totalCharge hits := by
    rw [Exact.zero_eq, totalCharge_eq]
    exact hpos
  rw [StripCluster.meanPosition, if_pos hzero, Exact.sum_eq, totalCharge_eq]
  simp only [mul_comm]

end Charges

namespace StripPlane

variable [Exact α]

structure IsCharged (p : StripPlane α) (h : StripHit α) : Prop where
  position : h.position = p.stripPosition h.strip
  charge : 0 < h.charge

structure InLine (p : StripPlane α) (hits : List (StripHit α)) : Prop where
  inhabited : hits ≠ []
  sorted : hits.Pairwise fun a b => a.strip ≤ b.strip
  charged : ∀ h ∈ hits, p.IsCharged h

def Spans (p : StripPlane α) (c : StripCluster α) : Prop :=
  ∃ first ∈ c.hits.head?, ∃ last ∈ c.hits.getLast?,
    p.stripPosition first.strip ≤ c.position ∧ c.position ≤ p.stripPosition last.strip

/-- A cluster does not lie behind another one, and before it if they have no strip in common. -/
def Precedes (c d : StripCluster α) : Prop :=
  c.position ≤ d.position ∧
    ((c.hits.map (·.strip)).Disjoint (d.hits.map (·.strip)) → c.position < d.position)

/-- Hits on strips of the plane, with charges, are cut into parts in line. -/
theorem inLine_of_mem_splitClusters {p : StripPlane α} {calls : List (Call α)}
    (h : p.Faithful calls) (hcharge : ∀ hit ∈ p.hits, 0 < hit.charge) (s : TrackerSettings α) :
    ∀ c ∈ splitClusters s (groupStrips p.hits), p.InLine c.hits := by
  intro c hc
  have hruns := groupStrips_areRuns h.nodup
  have hfollows := follows_of_mem_splitClusters s h.nodup c hc
  obtain ⟨run, hrun, hpart⟩ := List.mem_flatMap.mp hc
  have hpart := hits_mem_splitRun hpart
  have hcharged : ∀ hit ∈ run.hits, p.IsCharged hit := by
    intro hit hhit
    have hmem : hit ∈ p.hits := hruns.perm.subset (List.mem_flatMap.mpr ⟨run, hrun, hhit⟩)
    obtain ⟨o, -, hfrom⟩ := h.exists_offer hit hmem
    exact ⟨hfrom ▸ rfl, hcharge hit hmem⟩
  constructor
  · exact List.ne_nil_of_length_pos (size_of_mem_splitClusters s h.nodup c hc).1
  · have hstrips : (c.hits.map (·.strip)).IsChain (· ≤ ·) := by
      rw [List.isChain_map]
      apply hfollows.imp
      intro a b hab
      rw [hab]
      omega
    exact List.pairwise_map.mp hstrips.pairwise
  · exact forall_mem_splitRun (fun k hk => ⟨hk.position, halve_pos hk.charge⟩) hcharged _ hpart

section Order

variable {p : StripPlane α} (hpitch : 0 < p.pitch) (horient : p.orient = 1)

include hpitch horient

theorem stripPosition_lt {i j : Int} (h : i < j) : p.stripPosition i < p.stripPosition j := by
  have hcast : (i : α) < (j : α) := Int.cast_lt.mpr h
  rw [stripPosition, stripPosition, horient, one_mul, one_mul]
  exact add_lt_add_right (mul_lt_mul_of_pos_left hcast hpitch) _

theorem stripPosition_le {i j : Int} (h : i ≤ j) : p.stripPosition i ≤ p.stripPosition j := by
  rcases h.eq_or_lt with rfl | hlt
  · exact le_rfl
  · exact (stripPosition_lt hpitch horient hlt).le

/-- The mean position of hits in order lies between the first and the last of them. -/
theorem spans_of_inLine {c : StripCluster α} (h : p.InLine c.hits) : p.Spans c.measure := by
  have hpos : 0 < (c.hits.map (·.charge)).sum := by
    apply List.sum_pos
    · rw [List.forall_mem_map]
      exact fun k hk => (h.charged k hk).charge
    · simpa using h.inhabited
  obtain ⟨⟨a, ha, hlow⟩, b, hb, hhigh⟩ := weighted_mean_between
    (fun k hk => (h.charged k hk).charge.le) hpos StripHit.position
  rw [← meanPosition_eq hpos] at hlow hhigh
  rw [(h.charged a ha).position] at hlow
  rw [(h.charged b hb).position] at hhigh
  refine ⟨_, List.head?_eq_some_head h.inhabited, _, List.getLast?_eq_some_getLast h.inhabited,
    ?_, ?_⟩
  · exact (stripPosition_le hpitch horient (h.sorted.rel_head ha)).trans hlow
  · exact hhigh.trans (stripPosition_le hpitch horient (h.sorted.rel_getLast hb))

theorem precedes_of_spans {c d : StripCluster α} (hc : p.Spans c) (hd : p.Spans d)
    (hcd : NotBehind c.hits d.hits) : Precedes c d := by
  obtain ⟨-, -, last, hlast, -, hhigh⟩ := hc
  obtain ⟨first, hfirst, -, -, hlow, -⟩ := hd
  have hlast := List.mem_of_mem_getLast? hlast
  have hfirst := List.mem_of_mem_head? hfirst
  have hle : last.strip ≤ first.strip := hcd last hlast first hfirst
  constructor
  · exact hhigh.trans ((stripPosition_le hpitch horient hle).trans hlow)
  · intro hdisjoint
    have hne : last.strip ≠ first.strip := by
      intro hsame
      exact hdisjoint (List.mem_map_of_mem hlast) (hsame ▸ List.mem_map_of_mem hfirst)
    exact hhigh.trans_lt ((stripPosition_lt hpitch horient (hle.lt_of_ne hne)).trans_le hlow)

end Order

/-- Without a threshold on the peaks, clusters of all sizes that occur carry all of the charge. -/
theorem sum_total_formClusters {s : TrackerSettings α} {hits : List (StripHit α)}
    (hoff : s.crossTalkThreshold ≤ 0)
    (hsize : ∀ c ∈ splitClusters s (groupStrips hits), hasAllowedSize s c = true) :
    ((formClusters s hits).map (·.total)).sum = (hits.map (·.charge)).sum := by
  have hall : (splitClusters s (groupStrips hits)).filter
      (fun c => hasAllowedSize s c && !isLow s c.measure) = splitClusters s (groupStrips hits) := by
    rw [List.filter_eq_self]
    intro c hc
    simp [hsize c hc, isLow, hoff]
  rw [formClusters_eq_map, hall, List.map_map, ← sum_totalCharge_splitClusters s hits]
  rfl

/-- On a plane whose strips lie in their order, clusters of charged hits lie on their strips and
follow each other; if none is dropped, they carry the charge of the hits. -/
theorem clusters_in_order (o : Origin α) (hpitch : 0 < o.pitch) (horient : o.orient = 1)
    (hcharge : ∀ h ∈ o.plane.hits, 0 < h.charge) (s : TrackerSettings α) :
    let p := o.plane
    let clusters := (p.cluster s).clusters
    (∀ c ∈ clusters, p.Spans c) ∧ clusters.Pairwise Precedes ∧
      (s.crossTalkThreshold ≤ 0 →
        (∀ c ∈ splitClusters s (groupStrips p.hits), hasAllowedSize s c = true) →
        (clusters.map (·.total)).sum = (p.hits.map (·.charge)).sum) := by
  intro p clusters
  obtain ⟨-, -, hp, ho, -⟩ := o.isFrom_plane
  have hfaithful := o.faithful_plane
  have hpitch : 0 < p.pitch := hp ▸ hpitch
  have horient : p.orient = 1 := ho.trans horient
  have hspans : ∀ c ∈ splitClusters s (groupStrips p.hits), p.Spans c.measure := fun c hc =>
    spans_of_inLine hpitch horient (inLine_of_mem_splitClusters hfaithful hcharge s c hc)
  have hclusters : clusters = _ := formClusters_eq_map s p.hits
  refine ⟨?_, ?_, sum_total_formClusters⟩
  · rw [hclusters, List.forall_mem_map]
    intro c hc
    exact hspans c (List.mem_of_mem_filter hc)
  · rw [hclusters, List.pairwise_map]
    apply ((pairwise_splitClusters s hfaithful.nodup).sublist List.filter_sublist).imp_of_mem
    intro c d hc hd hcd
    exact precedes_of_spans hpitch horient (hspans c (List.mem_of_mem_filter hc))
      (hspans d (List.mem_of_mem_filter hd)) hcd

/-- Two showers that meet on a strip, which is offered twice, and another one beyond a gap; the last
strip does not exist. -/
def Origin.meeting {β : Type} [Scalar β] : Origin β :=
  ⟨.y, 6.4, 0.4, 1, 16, [.add ⟨7, 50, false⟩, .add ⟨5, 40, false⟩, .add ⟨6, 4, false⟩,
    .add ⟨9, 20, true⟩, .add ⟨6, 30, false⟩, .add ⟨16, 60, false⟩]⟩

theorem Origin.charges_meeting {β : Type} [Scalar β] :
    (meeting : Origin β).plane.hits.map (·.charge) = [50, 40, 4, 20] := by
  simp [meeting, plane, respond, add, judge, isGuard, hasFired, fire, build]

theorem clusters_of_meeting_in_order :
    let o : Origin ℝ := .meeting
    let p := o.plane
    let clusters := (p.cluster .standard).clusters
    0 < o.pitch ∧ o.orient = 1 ∧ (∀ h ∈ p.hits, 0 < h.charge) ∧
      (∀ c ∈ clusters, p.Spans c) ∧ clusters.Pairwise Precedes ∧
      (clusters.map (·.total)).sum = 114 := by
  intro o p clusters
  have hcharges : p.hits.map (·.charge) = [50, 40, 4, 20] := Origin.charges_meeting
  have hpitch : 0 < o.pitch := by
    change (0 : ℝ) < 0.4
    norm_num
  have horient : o.orient = 1 := Exact.one_eq
  have hcharge : ∀ h ∈ p.hits, 0 < h.charge := by
    have hall : ∀ e ∈ p.hits.map (·.charge), 0 < e := by
      rw [hcharges]
      norm_num
    exact List.forall_mem_map.mp hall
  have hsize : ∀ c ∈ splitClusters .standard (groupStrips p.hits),
      hasAllowedSize .standard c = true := by
    intro c hc
    obtain ⟨hmin, hmax⟩ := size_of_mem_splitClusters .standard o.faithful_plane.nodup c hc
    have hlength : p.hits.length = 4 := by
      rw [← List.length_map (f := (·.charge)), hcharges]
      rfl
    have hmax : c.size ≤ 20 := (hmax.trans_eq hlength).trans (by decide)
    simp [hasAllowedSize, TrackerSettings.standard, hmin, hmax]
  obtain ⟨hspans, hprecedes, htotal⟩ := clusters_in_order o hpitch horient hcharge .standard
  refine ⟨hpitch, horient, hcharge, hspans, hprecedes, ?_⟩
  rw [htotal Exact.zero_eq.le hsize, hcharges]
  norm_num

end StripPlane

end ShowerTrack
