import Mathlib.Data.List.SplitBy
import ShowerTrack.Proofs.Keyed
import ShowerTrack.Proofs.Order
import ShowerTrack.Proofs.Valleys

/-!
# Runs of strips

Hits on different strips are sorted and cut at the gaps into runs of neighboring strips. Splitting
at valleys keeps the strips of a part next to each other and the parts in order, so that the
clusters that are formed follow each other on the plane and overlap in one strip at most.
-/

set_option autoImplicit false

namespace ShowerTrack

variable {α : Type}

def Follows (a b : StripHit α) : Prop := b.strip = a.strip + 1

def NotBehind (as bs : List (StripHit α)) : Prop := ∀ a ∈ as, ∀ b ∈ bs, a.strip ≤ b.strip

structure AreRuns (hits : List (StripHit α)) (runs : List (StripCluster α)) : Prop where
  perm : (runs.flatMap (·.hits)).Perm hits
  sorted : (runs.flatMap (·.hits)).Pairwise fun a b => a.strip < b.strip
  inhabited : ∀ c ∈ runs, c.hits ≠ []
  inside : ∀ c ∈ runs, c.hits.IsChain Follows
  apart : runs.IsChain fun c d =>
    ∀ a ∈ c.hits.getLast?, ∀ b ∈ d.hits.head?, a.strip + 2 ≤ b.strip

/-- A cluster that is kept: neighboring strips, few and many enough, with a peak that is high enough
and the total and the peak of its own charges. What is no number is no candidate for the peak. -/
structure IsFormed [Scalar α] (s : TrackerSettings α) (c : StripCluster α) : Prop where
  inside : c.hits.IsChain Follows
  size : s.minClusterHits ≤ c.size ∧ c.size ≤ s.maxClusterHits
  high : 0 < s.crossTalkThreshold → s.crossTalkThreshold ≤ c.peak
  total : c.total = Scalar.sum (c.hits.map (·.charge))
  peak : c.peak ∈ 0 :: c.hits.map (·.charge) ∧
    ∀ e ∈ 0 :: c.hits.map (·.charge), Scalar.isNumber e = true → e ≤ c.peak

section Groups

variable {hits : List (StripHit α)}

theorem pairwise_sorted_strips (hn : (hits.map (·.strip)).Nodup) :
    (hits.mergeSort fun a b => a.strip ≤ b.strip).Pairwise fun a b => a.strip < b.strip := by
  have hdistinct : (hits.mergeSort fun a b => a.strip ≤ b.strip).Pairwise fun a b =>
      a.strip ≠ b.strip := by
    rw [← List.pairwise_map]
    exact (((List.mergeSort_perm hits _).map _).nodup_iff).mpr hn
  exact (pairwise_mergeSort_key StripHit.strip hits).imp₂ (fun a b => lt_of_le_of_ne) hdistinct

variable [Scalar α]

theorem flatMap_hits_groupStrips (hits : List (StripHit α)) :
    (groupStrips hits).flatMap (·.hits) = hits.mergeSort fun a b => a.strip ≤ b.strip := by
  rw [groupStrips, List.flatMap_map, List.flatMap_def]
  exact (congrArg List.flatten (List.map_id _)).trans (List.flatten_splitBy _ _)

theorem groupStrips_areRuns (hn : (hits.map (·.strip)).Nodup) :
    AreRuns hits (groupStrips hits) := by
  have hflat := flatMap_hits_groupStrips hits
  have hsorted := pairwise_sorted_strips hn
  have hwithin : ((groupStrips hits).map (·.hits)).flatten.Pairwise fun a b =>
      a.strip < b.strip := by
    rw [← List.flatMap_def, hflat]
    exact hsorted
  obtain ⟨hinside, hacross⟩ := List.pairwise_flatten.mp hwithin
  refine ⟨?_, ?_, ?_, ?_, ?_⟩
  · rw [hflat]
    exact List.mergeSort_perm hits _
  · rw [hflat]
    exact hsorted
  · intro c hc
    obtain ⟨run, hrun, rfl⟩ := List.mem_map.mp hc
    exact List.ne_nil_of_mem_splitBy hrun
  · intro c hc
    have hstrict := hinside c.hits (List.mem_map_of_mem hc)
    obtain ⟨run, hrun, rfl⟩ := List.mem_map.mp hc
    have hnear := List.isChain_of_mem_splitBy hrun
    rw [List.isChain_iff_forall_rel_of_append_cons_cons] at hnear ⊢
    intro a b front back hsplit
    have hgap := of_decide_eq_true (hnear hsplit)
    rw [hsplit, List.pairwise_append, List.pairwise_cons] at hstrict
    have hless := hstrict.2.1.1 b List.mem_cons_self
    unfold Follows
    omega
  · rw [groupStrips, List.isChain_map]
    apply (List.isChain_getLast_head_splitBy _ _).imp
    rintro run next ⟨hrun, hnext, hgap⟩ a ha b hb
    obtain rfl := Option.mem_unique (List.getLast?_eq_some_getLast hrun) ha
    obtain rfl := Option.mem_unique (List.head?_eq_some_head hnext) hb
    rw [decide_eq_false_iff_not] at hgap
    omega

end Groups

section Peaks

variable [Scalar α]

theorem max_mem (a b : α) : Scalar.max a b = a ∨ Scalar.max a b = b := by
  rw [Scalar.max]
  split
  · exact .inr rfl
  · split
    · exact .inl rfl
    · exact .inr rfl

variable [Scalar.Ordered α]

/-- The larger of two numbers is one of them; what is no number yields. -/
theorem le_max_of_isNumber {a b e : α} (h : e = a ∨ e = b) (he : Scalar.isNumber e = true) :
    e ≤ Scalar.max a b := by
  have he : e ≤ e := of_decide_eq_true he
  rw [Scalar.max]
  split
  · rename_i hlt
    rcases h with rfl | rfl
    · exact Scalar.Ordered.le_of_lt hlt
    · exact he
  · rename_i hlt
    split
    · rename_i ha
      rcases h with rfl | rfl
      · exact he
      · exact Scalar.Ordered.le_of_not_lt (of_decide_eq_true ha) he hlt
    · rename_i ha
      rcases h with rfl | rfl
      · exact absurd (decide_eq_true he) ha
      · exact he

theorem foldl_max_largest (charges : List α) (a : α) :
    charges.foldl Scalar.max a ∈ a :: charges ∧
      ∀ e ∈ a :: charges, Scalar.isNumber e = true → e ≤ charges.foldl Scalar.max a := by
  induction charges generalizing a with
  | nil =>
    refine ⟨List.mem_cons_self, ?_⟩
    rw [List.forall_mem_singleton]
    exact of_decide_eq_true
  | cons b charges ih =>
    obtain ⟨hmem, hlargest⟩ := ih (Scalar.max a b)
    rw [List.foldl_cons]
    constructor
    · rcases List.mem_cons.mp hmem with hmax | hrest
      · rw [hmax]
        rcases max_mem a b with ha | hb
        · simp [ha]
        · simp [hb]
      · exact List.mem_cons_of_mem a (List.mem_cons_of_mem b hrest)
    · intro e hmem he
      have hfirst : ∀ e, e = a ∨ e = b → Scalar.isNumber e = true →
          e ≤ charges.foldl Scalar.max (Scalar.max a b) := by
        intro e heq he
        have hle := le_max_of_isNumber heq he
        have hmax := hlargest _ List.mem_cons_self
          (decide_eq_true (Scalar.Ordered.le_self_right hle))
        exact Scalar.Ordered.le_trans hle hmax
      rcases List.mem_cons.mp hmem with heq | hmem
      · exact hfirst e (.inl heq) he
      · rcases List.mem_cons.mp hmem with heq | hmem
        · exact hfirst e (.inr heq) he
        · exact hlargest e (List.mem_cons_of_mem _ hmem) he

end Peaks

section Parts

variable [Scalar α] {difference : α}

theorem strips_leftPart (v : Nat) (hits : List (StripHit α)) :
    (leftPart v hits).map (·.strip) = (hits.map (·.strip)).take (v + 1) := by
  rw [leftPart, List.take_add_one, List.map_append, List.map_take, List.head?_drop,
    List.getElem?_map]
  cases hits[v]? <;> rfl

theorem strips_rightPart (v : Nat) (hits : List (StripHit α)) :
    (rightPart v hits).map (·.strip) = (hits.map (·.strip)).drop v := by
  rw [rightPart, List.head?_drop, List.map_append, List.map_drop]
  conv_rhs => rw [List.drop_eq_getElem?_toList_append, List.getElem?_map]
  cases hits[v]? <;> rfl

/-- The strips of a part stand next to each other in the run. -/
theorem strips_of_mem_splitRun {hits part : List (StripHit α)}
    (h : part ∈ splitRun difference hits) :
    part.map (·.strip) <:+: hits.map (·.strip) := by
  fun_induction splitRun difference hits with
  | case1 hits hnone =>
    rw [List.mem_singleton.mp h]
  | case2 hits v hv left right =>
    rcases List.mem_append.mp h with h | h
    · have hpart := left h
      rw [strips_leftPart] at hpart
      exact hpart.trans (List.take_prefix _ _).isInfix
    · have hpart := right h
      rw [strips_rightPart] at hpart
      exact hpart.trans (List.drop_suffix _ _).isInfix

theorem follows_of_mem_splitRun {hits part : List (StripHit α)} (hrun : hits.IsChain Follows)
    (h : part ∈ splitRun difference hits) : part.IsChain Follows := by
  have hstrips : (hits.map (·.strip)).IsChain fun a b => b = a + 1 := (List.isChain_map _).mpr hrun
  have hpart := List.IsChain.infix hstrips (strips_of_mem_splitRun h)
  exact (List.isChain_map (fun h : StripHit α => h.strip)).mp hpart

/-- The parts of a run follow each other, and share at most the strip of a valley. -/
theorem pairwise_splitRun {hits : List (StripHit α)}
    (sorted : (hits.map (·.strip)).Pairwise (· < ·)) :
    (splitRun difference hits).Pairwise NotBehind := by
  fun_induction splitRun difference hits with
  | case1 hits hnone => exact List.pairwise_singleton _ _
  | case2 hits v hv left right =>
    rw [strips_leftPart] at left
    rw [strips_rightPart] at right
    rw [List.pairwise_append]
    refine ⟨left (sorted.sublist (List.take_sublist _ _)),
      right (sorted.sublist (List.drop_sublist _ _)), ?_⟩
    intro p hp q hq a ha b hb
    have hpa := (strips_of_mem_splitRun hp).subset (List.mem_map_of_mem ha)
    have hqb := (strips_of_mem_splitRun hq).subset (List.mem_map_of_mem hb)
    rw [strips_leftPart] at hpa
    rw [strips_rightPart] at hqb
    obtain ⟨i, hi, hia⟩ := List.mem_take_iff_getElem.mp hpa
    obtain ⟨j, hj, hjb⟩ := List.mem_drop_iff_getElem.mp hqb
    rw [← hia, ← hjb]
    rcases Nat.lt_or_ge i (v + j) with hlt | hge
    · exact (List.pairwise_iff_getElem.mp sorted i (v + j) _ _ hlt).le
    · have hsame : i = v + j := by omega
      simp only [hsame, le_refl]

theorem hits_mem_splitRun {c part : StripCluster α} (h : part ∈ splitCluster difference c) :
    part.hits ∈ splitRun difference c.hits := by
  rw [← (hits_splitCluster difference c).2]
  exact List.mem_map_of_mem h

/-- Splitting keeps the runs apart and the parts of each in order. -/
theorem pairwise_splitClusters (s : TrackerSettings α) {hits : List (StripHit α)}
    (hn : (hits.map (·.strip)).Nodup) : (splitClusters s (groupStrips hits)).Pairwise fun c d =>
      NotBehind c.hits d.hits := by
  have hsorted := (groupStrips_areRuns hn).sorted
  rw [List.pairwise_flatMap] at hsorted
  rw [splitClusters, List.pairwise_flatMap]
  constructor
  · intro c hc
    have hparts : (splitRun s.splitDifference c.hits).Pairwise NotBehind :=
      pairwise_splitRun (List.pairwise_map.mpr (hsorted.1 c hc))
    rw [← (hits_splitCluster s.splitDifference c).2, List.pairwise_map] at hparts
    exact hparts
  · apply hsorted.2.imp
    intro c d hcd p hp q hq a ha b hb
    have hpa := (strips_of_mem_splitRun (hits_mem_splitRun hp)).subset (List.mem_map_of_mem ha)
    have hqb := (strips_of_mem_splitRun (hits_mem_splitRun hq)).subset (List.mem_map_of_mem hb)
    obtain ⟨a', ha', hsame⟩ := List.mem_map.mp hpa
    obtain ⟨b', hb', hsame'⟩ := List.mem_map.mp hqb
    rw [← hsame, ← hsame']
    exact (hcd a' ha' b' hb').le

theorem follows_of_mem_splitClusters (s : TrackerSettings α) {hits : List (StripHit α)}
    (hn : (hits.map (·.strip)).Nodup) :
    ∀ c ∈ splitClusters s (groupStrips hits), c.hits.IsChain Follows := by
  intro c hc
  obtain ⟨run, hrun, hc⟩ := List.mem_flatMap.mp hc
  exact follows_of_mem_splitRun ((groupStrips_areRuns hn).inside run hrun) (hits_mem_splitRun hc)

theorem crossTalk_of_mem_splitClusters (s : TrackerSettings α) {hits : List (StripHit α)} :
    ∀ c ∈ splitClusters s (groupStrips hits), c.crossTalk = false := by
  intro c hc
  obtain ⟨run, hrun, hc⟩ := List.mem_flatMap.mp hc
  obtain ⟨strips, _, rfl⟩ := List.mem_map.mp hrun
  obtain ⟨first, others, hsplit⟩ := (hits_splitCluster s.splitDifference (.ofHits strips)).1
  rw [hsplit] at hc
  rcases List.mem_cons.mp hc with rfl | hc
  · rfl
  · obtain ⟨other, _, rfl⟩ := List.mem_map.mp hc
    rfl

end Parts

section Formed

variable [Scalar α]

def isLow (s : TrackerSettings α) (c : StripCluster α) : Bool :=
  !decide (s.crossTalkThreshold ≤ 0) && decide (c.peak < s.crossTalkThreshold)

/-- Of clusters that are not flagged before, those are kept that are not low. -/
theorem filter_flagCrossTalk (s : TrackerSettings α) {cs : List (StripCluster α)}
    (h : ∀ c ∈ cs, c.crossTalk = false) :
    (flagCrossTalk s cs).filter (!·.crossTalk) = cs.filter (!isLow s ·) := by
  rw [flagCrossTalk]
  split
  · rename_i hoff
    apply List.filter_congr
    intro c hc
    simp [isLow, hoff, h c hc]
  · rename_i hon
    rw [List.filter_map]
    have hkept : cs.filter ((!·.crossTalk) ∘ fun c => if c.peak < s.crossTalkThreshold
        then c.flagCrossTalk else c) = cs.filter (!isLow s ·) := by
      apply List.filter_congr
      intro c hc
      by_cases hlow : c.peak < s.crossTalkThreshold
      · simp [isLow, hon, hlow, StripCluster.flagCrossTalk]
      · simp [isLow, hlow, h c hc]
    rw [hkept]
    conv_rhs => rw [← List.map_id (cs.filter (!isLow s ·))]
    apply List.map_congr_left
    intro c hc
    have hhigh := (List.mem_filter.mp hc).2
    rw [if_neg]
    · rfl
    · intro hlow
      simp [isLow, hon, hlow] at hhigh

/-- The clusters that are formed are measured parts of the right size, without the low ones. -/
theorem formClusters_eq_map (s : TrackerSettings α) (hits : List (StripHit α)) :
    formClusters s hits = ((splitClusters s (groupStrips hits)).filter fun c =>
      hasAllowedSize s c && !isLow s c.measure).map (·.measure) := by
  rw [formClusters, filter_flagCrossTalk, List.filter_map, List.filter_filter]
  · congr 1
    apply List.filter_congr
    intro c _
    rw [Bool.and_comm]
    rfl
  · rw [List.forall_mem_map]
    intro c hc
    exact crossTalk_of_mem_splitClusters s c (List.mem_of_mem_filter hc)

variable [Scalar.Ordered α]

theorem isFormed_of_mem_formClusters (s : TrackerSettings α) {hits : List (StripHit α)}
    (hn : (hits.map (·.strip)).Nodup) : ∀ c ∈ formClusters s hits, IsFormed s c := by
  intro c hc
  rw [formClusters_eq_map] at hc
  obtain ⟨d, hd, rfl⟩ := List.mem_map.mp hc
  obtain ⟨hd, hkept⟩ := List.mem_filter.mp hd
  rw [Bool.and_eq_true, hasAllowedSize, Bool.and_eq_true, decide_eq_true_eq,
    decide_eq_true_eq] at hkept
  have hpeak := foldl_max_largest (d.hits.map (·.charge)) 0
  refine ⟨follows_of_mem_splitClusters s hn d hd, hkept.1, ?_, rfl, hpeak⟩
  intro hpos
  have hzero : (0 : α) ≤ 0 := Scalar.Ordered.le_self_left (Scalar.Ordered.le_of_lt hpos)
  have hnumber : d.measure.peak ≤ d.measure.peak :=
    Scalar.Ordered.le_self_right (hpeak.2 0 List.mem_cons_self (decide_eq_true hzero))
  have hhigh : ¬ d.measure.peak < s.crossTalkThreshold := by
    intro hlow
    have hon := Scalar.Ordered.not_le_of_lt hpos
    simp [isLow, hon, hlow] at hkept
  exact Scalar.Ordered.le_of_not_lt hnumber (Scalar.Ordered.number_of_lt hpos) hhigh

/-- Hits on different strips are grouped into runs, and the clusters formed from them are runs too,
of the right size and height, one after the other. -/
theorem strips_formed_in_runs (s : TrackerSettings α) {hits : List (StripHit α)}
    (hn : (hits.map (·.strip)).Nodup) :
    AreRuns hits (groupStrips hits) ∧ (∀ c ∈ formClusters s hits, IsFormed s c) ∧
      (formClusters s hits).Pairwise fun c d => NotBehind c.hits d.hits := by
  refine ⟨groupStrips_areRuns hn, isFormed_of_mem_formClusters s hn, ?_⟩
  rw [formClusters_eq_map, List.pairwise_map]
  exact (pairwise_splitClusters s hn).sublist List.filter_sublist

/-- Two showers that meet on strip 12, and a weak one beyond a gap. -/
def meeting : List (StripHit Float32) :=
  [⟨13, 50, 5.2, false⟩, ⟨30, 6, 12, false⟩, ⟨11, 40, 4.4, false⟩, ⟨12, 4, 4.8, false⟩]

def withCrossTalk : TrackerSettings Float32 :=
  { TrackerSettings.standard with crossTalkThreshold := 10 }

theorem meeting_formed_in_runs :
    (meeting.map (·.strip)).Nodup ∧ AreRuns meeting (groupStrips meeting) ∧
      (∀ c ∈ formClusters withCrossTalk meeting, IsFormed withCrossTalk c) ∧
      (formClusters withCrossTalk meeting).Pairwise fun c d => NotBehind c.hits d.hits :=
  ⟨by decide, strips_formed_in_runs withCrossTalk (by decide)⟩

end Formed

end ShowerTrack
