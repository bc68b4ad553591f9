import ShowerTrack.Calorimeter.Cluster
import ShowerTrack.Proofs.Order

/-!
# The first of the best

Whoever keeps the best key so far, and gives it up for a better one only, ends with the first of
the best keys. So clusters get their centers, and hits their nearest windows.
-/

set_option autoImplicit false

namespace ShowerTrack

/-- When a key is as good as another, and when it is better. Keys that do not compare are neither
to each other. -/
structure Ranking (κ : Type) where
  reaches : κ → κ → Prop
  beats : κ → κ → Prop
  irrefl (a : κ) : ¬ beats a a
  reaches_of_beats {a b : κ} : beats a b → reaches a b
  beats_of_reaches {a b c : κ} : reaches a b → beats b c → beats a c

namespace Ranking

variable {κ : Type}

/-- The first of the best keys: none before it is as good, and none behind it is better. -/
def First (r : Ranking κ) (keys : List κ) (best : κ) : Prop :=
  ∃ before after, keys = before ++ best :: after ∧
    (∀ k ∈ before, ¬ r.reaches k best) ∧ ∀ k ∈ after, ¬ r.beats k best

variable {r : Ranking κ} {keys : List κ} {best next : κ}

theorem first_singleton (r : Ranking κ) (k : κ) : r.First [k] k :=
  ⟨[], [], rfl, by simp, by simp⟩

theorem First.mem (h : r.First keys best) : best ∈ keys := by
  obtain ⟨before, after, rfl, _⟩ := h
  exact List.mem_append_right before List.mem_cons_self

theorem First.not_beats (h : r.First keys best) : ∀ k ∈ keys, ¬ r.beats k best := by
  obtain ⟨before, after, rfl, hbefore, hafter⟩ := h
  intro k hk
  rcases List.mem_append.mp hk with hk | hk
  · exact fun hbeats => hbefore k hk (r.reaches_of_beats hbeats)
  · rcases List.mem_cons.mp hk with rfl | hk
    · exact r.irrefl k
    · exact hafter k hk

theorem First.append_keep {later : List κ} (h : r.First keys best)
    (hlater : ∀ k ∈ later, ¬ r.beats k best) : r.First (keys ++ later) best := by
  obtain ⟨before, after, rfl, hbefore, hafter⟩ := h
  refine ⟨before, after ++ later, by simp, hbefore, ?_⟩
  intro k hk
  exact (List.mem_append.mp hk).elim (hafter k) (hlater k)

theorem First.append_replace {later : List κ} (h : r.First keys best)
    (hlater : r.First later next) (hnext : r.beats next best) : r.First (keys ++ later) next := by
  obtain ⟨before, after, rfl, hbefore, hafter⟩ := hlater
  refine ⟨keys ++ before, after, by simp, ?_, hafter⟩
  intro k hk
  rcases List.mem_append.mp hk with hk | hk
  · exact fun hreaches => h.not_beats k hk (r.beats_of_reaches hreaches hnext)
  · exact hbefore k hk

theorem First.keep (h : r.First keys best) (hnext : ¬ r.beats next best) :
    r.First (keys ++ [next]) best :=
  h.append_keep fun _ hk => List.mem_singleton.mp hk ▸ hnext

theorem First.replace (h : r.First keys best) (hnext : r.beats next best) :
    r.First (keys ++ [next]) next :=
  h.append_replace (first_singleton r next) hnext

/-- The place of the first of the best keys. -/
theorem First.exists_place (h : r.First keys best) : ∃ i : Nat, keys[i]? = some best ∧
    ∀ (j : Nat) (k : κ), keys[j]? = some k →
      (j < i → ¬ r.reaches k best) ∧ (i < j → ¬ r.beats k best) := by
  obtain ⟨before, after, rfl, hbefore, hafter⟩ := h
  refine ⟨before.length, by simp, ?_⟩
  intro j k hk
  constructor
  · intro hj
    rw [List.getElem?_append_left hj] at hk
    exact hbefore k (List.mem_of_getElem? hk)
  · intro hj
    obtain ⟨n, rfl⟩ := Nat.exists_eq_add_of_lt hj
    rw [List.getElem?_append_right (by omega), Nat.add_assoc, Nat.add_sub_cancel_left,
      List.getElem?_cons_succ] at hk
    exact hafter k (List.mem_of_getElem? hk)

/-- The first of the best keys, when every key tells its place. -/
theorem First.of_sorted {place : κ → Nat} (h : r.First keys best)
    (sorted : keys.Pairwise fun a b => place a < place b) :
    ∀ k ∈ keys, place k < place best → ¬ r.reaches k best := by
  obtain ⟨before, after, rfl, hbefore, _⟩ := h
  intro k hk hplace
  rcases List.mem_append.mp hk with hk | hk
  · exact hbefore k hk
  · have hle : place best ≤ place k := by
      rcases List.mem_cons.mp hk with rfl | hk
      · exact le_refl _
      · exact ((List.pairwise_cons.mp (List.pairwise_append.mp sorted).2.1).1 k hk).le
    exact absurd hplace hle.not_gt

section FirstLeast

variable {less : κ → κ → Bool}

theorem firstLeast?_concat (less : κ → κ → Bool) (k : κ) (ks : List κ) (next : κ) :
    firstLeast? less (k :: ks ++ [next]) = (firstLeast? less (k :: ks)).map fun best =>
      if less next best then next else best := by
  simp [firstLeast?]

theorem first_firstLeast? (hless : ∀ a b, less a b = true ↔ r.beats a b) {best : κ}
    (h : firstLeast? less keys = some best) : r.First keys best := by
  induction keys using List.reverseRecOn generalizing best with
  | nil => cases h
  | append_singleton keys next ih =>
    match keys with
    | [] =>
      obtain rfl := Option.some.inj h
      exact first_singleton r next
    | k :: ks =>
      rw [firstLeast?_concat] at h
      obtain ⟨earlier, hearlier, rfl⟩ := Option.map_eq_some_iff.mp h
      by_cases hnext : less next earlier = true
      · rw [if_pos hnext]
        exact (ih hearlier).replace ((hless _ _).mp hnext)
      · rw [if_neg hnext]
        exact (ih hearlier).keep fun hbeats => hnext ((hless _ _).mpr hbeats)

end FirstLeast

variable {α : Type} [Scalar α] [Scalar.Ordered α]

def largest (f : κ → α) : Ranking κ where
  reaches a b := f b ≤ f a
  beats a b := f b < f a
  irrefl _ := Scalar.Ordered.lt_irrefl _
  reaches_of_beats := Scalar.Ordered.le_of_lt
  beats_of_reaches hab hbc := Scalar.Ordered.lt_of_lt_of_le hbc hab

end Ranking

namespace BlockCluster

variable {α : Type} [Scalar α] [Scalar.Ordered α]

def FirstHighest (hs : List (BlockHit α)) (h : BlockHit α) : Prop :=
  (Ranking.largest BlockHit.energy).First hs h

/-- A newcomer is the new center just when it has more energy than the old one. -/
theorem FirstHighest.newCenter {hs : List (BlockHit α)} {c : BlockCluster α}
    (hc : c.isEmpty = false) (h : FirstHighest hs c.center) (next : BlockHit α) :
    FirstHighest (hs ++ [next]) (c.newCenter next) := by
  rw [BlockCluster.newCenter, hc, Bool.false_or]
  by_cases hstronger : c.center.energy < next.energy
  · rw [decide_eq_true hstronger, if_pos rfl]
    exact Ranking.First.replace h hstronger
  · rw [decide_eq_false hstronger, if_neg Bool.false_ne_true]
    exact Ranking.First.keep h hstronger

/-- The center of further hits is the new center just when it has more energy than the old one. -/
theorem FirstHighest.append {hs ks : List (BlockHit α)} {c : BlockCluster α} {next : BlockHit α}
    (hc : c.isEmpty = false) (h : FirstHighest hs c.center) (hk : FirstHighest ks next)
    (hnumber : ∀ k ∈ ks, k.energy ≤ k.energy) : FirstHighest (hs ++ ks) (c.newCenter next) := by
  rw [BlockCluster.newCenter, hc, Bool.false_or]
  by_cases hstronger : c.center.energy < next.energy
  · rw [decide_eq_true hstronger, if_pos rfl]
    exact Ranking.First.append_replace h hk hstronger
  · rw [decide_eq_false hstronger, if_neg Bool.false_ne_true]
    apply Ranking.First.append_keep h
    intro k hmem hbeats
    have hle : k.energy ≤ next.energy := Scalar.Ordered.le_of_not_lt
      (hnumber next (Ranking.First.mem hk)) (hnumber k hmem) (Ranking.First.not_beats hk k hmem)
    exact hstronger (Scalar.Ordered.lt_of_lt_of_le hbeats hle)

theorem firstHighest_ofHits {hs : List (BlockHit α)} (hne : hs ≠ []) :
    FirstHighest hs (ofHits hs).center := by
  induction hs using List.reverseRecOn with
  | nil => exact absurd rfl hne
  | append_singleton hs next ih =>
    have hcenter : (ofHits (hs ++ [next])).center = (ofHits hs).newCenter next := by
      rw [ofHits, addAll_append]
      rfl
    rw [hcenter]
    by_cases hfirst : hs = []
    · subst hfirst
      exact Ranking.first_singleton _ next
    · have hempty : (ofHits hs).isEmpty = false := by
        rwa [isEmpty, hits_ofHits, List.isEmpty_eq_false_iff]
      exact (ih hfirst).newCenter hempty next

end BlockCluster

end ShowerTrack
