import ShowerTrack.Matching
import ShowerTrack.Proofs.Connected
import ShowerTrack.Proofs.Words

/-!
# Candidates

A calorimeter hit is told which tracker hits lie inside its window, nearest first, and which of all
of them is the best. Those that are equally near stay as they stand in their list, and of two
trackers the first one is preferred. A distance that is no number is not below any window, and the
distances that are left have no sign, so it does not matter that they are sorted by their words.
-/

set_option autoImplicit false

namespace ShowerTrack

section Sorting

variable {β : Type} {le le' : β → β → Bool} {r : β → β → Prop} {xs : List β}

theorem mergeSort_congr (h : ∀ a ∈ xs, ∀ b ∈ xs, le a b = le' a b) :
    xs.mergeSort le = xs.mergeSort le' := by
  simpa using List.map_mergeSort (f := id) h

/-- A sort leaves items that tie in the order in which they stand. -/
theorem pairwise_mergeSort_stable (trans : ∀ a b c, le a b = true → le b c = true → le a c = true)
    (total : ∀ a b, (le a b || le b a) = true) (h : xs.Pairwise r) :
    (xs.mergeSort le).Pairwise fun a b => le a b = true ∧ (le b a = true → r a b) := by
  induction xs with
  | nil => simp
  | cons a xs ih =>
    obtain ⟨front, back, hsort, hrest, hfront⟩ := List.mergeSort_cons trans total a xs
    obtain ⟨ha, hxs⟩ := List.pairwise_cons.mp h
    have hsorted := List.pairwise_mergeSort trans total (a :: xs)
    have ih := ih hxs
    rw [hsort] at hsorted ⊢
    rw [hrest] at ih
    obtain ⟨hfronts, hbacks, hacross⟩ := List.pairwise_append.mp ih
    obtain ⟨-, hback, hbefore⟩ := List.pairwise_append.mp hsorted
    have hback := (List.pairwise_cons.mp hback).1
    have hmem : ∀ b ∈ back, b ∈ xs := fun b hb =>
      List.mem_mergeSort.mp (hrest ▸ List.mem_append_right front hb)
    refine List.pairwise_append.mpr ⟨hfronts, List.pairwise_cons.mpr ⟨?_, hbacks⟩, ?_⟩
    · exact fun b hb => ⟨hback b hb, fun _ => ha b (hmem b hb)⟩
    · intro b hb c hc
      rcases List.mem_cons.mp hc with rfl | hc
      · -- what comes before the new item is strictly less
        refine ⟨hbefore b hb c List.mem_cons_self, fun htie => ?_⟩
        simpa [htie] using hfront b hb
      · exact hacross b hb c hc

end Sorting

def sides {β : Type} (x y : List β) : Detector → List β
  | .hyCal => []
  | .gem1 => x
  | .gem2 => y

theorem sides_map {β γ : Type} (f : β → γ) (x y : List β) (p : Detector) :
    sides (x.map f) (y.map f) p = (sides x y p).map f := by
  cases p <;> rfl

namespace MatchSettings

variable {α : Type} [Elementary α]

def away (s : MatchSettings α) (hit : CaloHit α) (tracker : List (TrackerHit α)) (i : Nat) :
    Option α :=
  tracker[i]?.map fun t => s.distance hit.point t.point

def inside (s : MatchSettings α) (hit : CaloHit α) (tracker : List (TrackerHit α)) :
    List (Nat × α) :=
  (tracker.zipIdx.map fun (t, i) => (i, s.distance hit.point t.point)).filter
    fun (_, d) => d < s.window hit.flags

structure Ranked (s : MatchSettings α) (hit : CaloHit α) (tracker : List (TrackerHit α))
    (ranked : List Nat) : Prop where
  mem_iff : ∀ i, i ∈ ranked ↔ ∃ d ∈ s.away hit tracker i, d < s.window hit.flags
  once : ranked.Nodup
  sorted : ranked.Pairwise fun i j => ∃ d ∈ s.away hit tracker i, ∃ e ∈ s.away hit tracker j,
    d < e ∨ (Scalar.same d e = true ∧ i < j)
  numbers : ∀ i ∈ ranked, ∀ d ∈ s.away hit tracker i, Scalar.isNumber d = true

structure Matched (s : MatchSettings α) (gem1 gem2 : List (TrackerHit α)) (hit : CaloHit α × Nat)
    (m : Match) : Prop where
  position : m.hyCal = hit.2
  ranked_gem1 : Ranked s hit.1 gem1 m.gem1Candidates
  ranked_gem2 : Ranked s hit.1 gem2 m.gem2Candidates
  gem1_eq : m.gem1 = m.gem1Candidates.head?
  gem2_eq : m.gem2 = m.gem2Candidates.head?
  best_none : m.best = none ↔ m.gem1Candidates = [] ∧ m.gem2Candidates = []
  best_nearest : ∀ p i, m.best = some (p, i) →
    (sides m.gem1Candidates m.gem2Candidates p).head? = some i ∧
      ∃ d ∈ s.away hit.1 (sides gem1 gem2 p) i,
        ∀ q, ∀ j ∈ sides m.gem1Candidates m.gem2Candidates q,
          ∀ e ∈ s.away hit.1 (sides gem1 gem2 q) j, d ≤ e ∧ (p = .gem2 → q = .gem1 → d < e)
  flags : ∀ f, m.flags.test f = true ↔ (f = .gem1Match ∧ m.gem1Candidates ≠ []) ∨
    (f = .gem2Match ∧ m.gem2Candidates ≠ []) ∨
      (f = .overlapMatch ∧ m.gem1Candidates ≠ [] ∧ m.gem2Candidates ≠ [])
  overlap : m.isOverlap = true ↔ m.gem1Candidates ≠ [] ∧ m.gem2Candidates ≠ []

section Inside

variable {s : MatchSettings α} {hit : CaloHit α} {tracker : List (TrackerHit α)} {x : Nat × α}

theorem mem_inside : x ∈ s.inside hit tracker ↔
    x.2 ∈ s.away hit tracker x.1 ∧ x.2 < s.window hit.flags := by
  obtain ⟨i, d⟩ := x
  simp only [inside, away, List.mem_filter, List.mem_map, List.mem_zipIdx_iff_getElem?,
    decide_eq_true_eq, Option.mem_def, Option.map_eq_some_iff, Prod.exists, Prod.mk.injEq]
  constructor
  · rintro ⟨⟨t, i, ht, rfl, rfl⟩, hd⟩
    exact ⟨⟨t, ht, rfl⟩, hd⟩
  · rintro ⟨⟨t, ht, rfl⟩, hd⟩
    exact ⟨⟨t, i, ht, rfl, rfl⟩, hd⟩

theorem inside_sorted (s : MatchSettings α) (hit : CaloHit α) (tracker : List (TrackerHit α)) :
    (s.inside hit tracker).Pairwise fun a b => a.1 < b.1 := by
  apply List.Pairwise.filter
  rw [List.pairwise_map]
  exact zipIdx_sorted tracker

theorem mem_candidates : x ∈ s.candidates hit tracker ↔
    x.2 ∈ s.away hit tracker x.1 ∧ x.2 < s.window hit.flags := by
  rw [← mem_inside]
  exact List.mem_mergeSort

theorem mem_ranked {i : Nat} : i ∈ (s.candidates hit tracker).map (·.1) ↔
    ∃ d ∈ s.away hit tracker i, d < s.window hit.flags := by
  rw [List.mem_map]
  constructor
  · rintro ⟨x, hx, rfl⟩
    exact ⟨x.2, mem_candidates.mp hx⟩
  · rintro ⟨d, hd⟩
    exact ⟨(i, d), mem_candidates.mpr hd, rfl⟩

theorem sides_candidates (s : MatchSettings α) (hit : CaloHit α)
    (gem1 gem2 : List (TrackerHit α)) (p : Detector) :
    sides (s.candidates hit gem1) (s.candidates hit gem2) p =
      s.candidates hit (sides gem1 gem2 p) := by
  cases p with
  | hyCal => exact List.mergeSort_nil.symm
  | gem1 => rfl
  | gem2 => rfl

end Inside

section Order

variable [Scalar.Ordered α] {s : MatchSettings α} {hit : CaloHit α} {tracker : List (TrackerHit α)}

/-- Whether a distance is at most another, where what is no number is more than all numbers. -/
def reaches (a b : Nat × α) : Bool := a.2 ≤ b.2 || !Scalar.isNumber b.2

theorem reaches_trans (a b c : Nat × α) (hab : reaches a b = true) (hbc : reaches b c = true) :
    reaches a c = true := by
  simp only [reaches, Scalar.isNumber, Bool.or_eq_true, decide_eq_true_eq, Bool.not_eq_true',
    decide_eq_false_iff_not] at hab hbc ⊢
  rcases hbc with hbc | hbc
  · exact .inl (Scalar.Ordered.le_trans
      (hab.resolve_right fun h => h (Scalar.Ordered.le_self_left hbc)) hbc)
  · exact .inr hbc

theorem reaches_total (a b : Nat × α) : (reaches a b || reaches b a) = true := by
  simp only [reaches, Scalar.isNumber, Bool.or_eq_true, decide_eq_true_eq, Bool.not_eq_true',
    decide_eq_false_iff_not]
  by_cases ha : a.2 ≤ a.2
  · by_cases hb : b.2 ≤ b.2
    · exact (Scalar.Ordered.le_total ha hb).imp .inl .inl
    · exact .inl (.inr hb)
  · exact .inr (.inr ha)

theorem number_of_inside {x : Nat × α} (h : x ∈ s.inside hit tracker) : x.2 ≤ x.2 :=
  Scalar.Ordered.le_self_left (Scalar.Ordered.le_of_lt (mem_inside.mp h).2)

theorem reaches_of_inside {x : Nat × α} (h : x ∈ s.inside hit tracker) (a : Nat × α) :
    reaches a x = decide (a.2 ≤ x.2) := by
  simp [reaches, Scalar.isNumber, number_of_inside h]

theorem candidates_eq (s : MatchSettings α) (hit : CaloHit α) (tracker : List (TrackerHit α)) :
    s.candidates hit tracker = (s.inside hit tracker).mergeSort reaches :=
  mergeSort_congr fun a _ _ hb => (reaches_of_inside hb a).symm

theorem candidates_sorted (s : MatchSettings α) (hit : CaloHit α)
    (tracker : List (TrackerHit α)) : (s.candidates hit tracker).Pairwise fun a b =>
      a.2 < b.2 ∨ (Scalar.same a.2 b.2 = true ∧ a.1 < b.1) := by
  have hsorted := pairwise_mergeSort_stable reaches_trans reaches_total
    (inside_sorted s hit tracker)
  rw [← candidates_eq] at hsorted
  refine hsorted.imp_of_mem ?_
  intro a b ha hb ⟨hab, htie⟩
  have ha := mem_inside.mpr (mem_candidates.mp ha)
  have hb := mem_inside.mpr (mem_candidates.mp hb)
  rw [reaches_of_inside hb, decide_eq_true_eq] at hab
  rw [reaches_of_inside ha, decide_eq_true_eq] at htie
  by_cases hba : b.2 ≤ a.2
  · exact .inr ⟨by simp [Scalar.same, hab, hba], htie hba⟩
  · exact .inl (Scalar.Ordered.lt_iff.mpr ⟨hab, hba⟩)

theorem ranked_candidates (s : MatchSettings α) (hit : CaloHit α)
    (tracker : List (TrackerHit α)) :
    Ranked s hit tracker ((s.candidates hit tracker).map (·.1)) where
  mem_iff _ := mem_ranked
  once := by
    have hinside : ((s.inside hit tracker).map (·.1)).Nodup := by
      rw [List.Nodup, List.pairwise_map]
      exact (inside_sorted s hit tracker).imp fun h => h.ne
    exact ((List.mergeSort_perm _ _).map _).nodup_iff.mpr hinside
  sorted := by
    rw [List.pairwise_map]
    refine (candidates_sorted s hit tracker).imp_of_mem ?_
    intro a b ha hb hab
    exact ⟨a.2, (mem_candidates.mp ha).1, b.2, (mem_candidates.mp hb).1, hab⟩
  numbers i hi d hd := by
    obtain ⟨d', hd', hwindow⟩ := mem_ranked.mp hi
    obtain rfl := Option.mem_unique hd hd'
    exact decide_eq_true (Scalar.Ordered.le_self_left (Scalar.Ordered.le_of_lt hwindow))

end Order

section Choice

variable {c1 c2 : List (Nat × α)}

theorem choose_none (c1 c2 : List (Nat × α)) : (choose c1 c2).1 = none ↔ c1 = [] ∧ c2 = [] := by
  cases c1 <;> cases c2 <;> simp [choose]

theorem test_choose (c1 c2 : List (Nat × α)) (f : Flag) : (choose c1 c2).2.test f = true ↔
    (f = .gem1Match ∧ c1 ≠ []) ∨ (f = .gem2Match ∧ c2 ≠ []) ∨
      (f = .overlapMatch ∧ c1 ≠ [] ∧ c2 ≠ []) := by
  cases c1 <;> cases c2 <;> cases f <;> simp [choose] <;> decide

section Least

variable {d : α}

theorem least_gem1 (h1 : ∀ x ∈ c1, d ≤ x.2) (h2 : ∀ x ∈ c2, d ≤ x.2) :
    ∀ q, ∀ x ∈ sides c1 c2 q, d ≤ x.2 ∧ (Detector.gem1 = .gem2 → q = .gem1 → d < x.2) := by
  intro q x hx
  cases q with
  | hyCal => cases hx
  | gem1 => exact ⟨h1 x hx, nofun⟩
  | gem2 => exact ⟨h2 x hx, nofun⟩

theorem least_gem2 [Scalar.Ordered α] (h1 : ∀ x ∈ c1, d < x.2) (h2 : ∀ x ∈ c2, d ≤ x.2) :
    ∀ q, ∀ x ∈ sides c1 c2 q, d ≤ x.2 ∧ (Detector.gem2 = .gem2 → q = .gem1 → d < x.2) := by
  intro q x hx
  cases q with
  | hyCal => cases hx
  | gem1 => exact ⟨Scalar.Ordered.le_of_lt (h1 x hx), fun _ _ => h1 x hx⟩
  | gem2 => exact ⟨h2 x hx, nofun⟩

end Least

/-- Where the first entries are the least of their lists, the chosen one is the least of both. -/
theorem choose_nearest [Scalar.Ordered α] {p : Detector} {i : Nat}
    (h1 : ∀ a ∈ c1.head?, ∀ x ∈ c1, a.2 ≤ x.2) (h2 : ∀ b ∈ c2.head?, ∀ x ∈ c2, b.2 ≤ x.2)
    (h : (choose c1 c2).1 = some (p, i)) : ∃ d, (sides c1 c2 p).head? = some (i, d) ∧
      ∀ q, ∀ x ∈ sides c1 c2 q, d ≤ x.2 ∧ (p = .gem2 → q = .gem1 → d < x.2) := by
  match c1, c2, h1, h2, h with
  | a :: _, [], h1, _, rfl => exact ⟨a.2, rfl, least_gem1 (h1 a rfl) nofun⟩
  | [], b :: _, _, h2, rfl => exact ⟨b.2, rfl, least_gem2 nofun (h2 b rfl)⟩
  | a :: _, b :: _, h1, h2, h =>
    by_cases hba : b.2 < a.2
    · rw [choose, if_pos hba] at h
      obtain ⟨rfl, rfl⟩ := Prod.mk.inj (Option.some.inj h)
      have hlt := fun x hx => Scalar.Ordered.lt_of_lt_of_le hba (h1 a rfl x hx)
      exact ⟨b.2, rfl, least_gem2 hlt (h2 b rfl)⟩
    · rw [choose, if_neg hba] at h
      obtain ⟨rfl, rfl⟩ := Prod.mk.inj (Option.some.inj h)
      have hab := Scalar.Ordered.le_of_not_lt (h2 b rfl b List.mem_cons_self)
        (h1 a rfl a List.mem_cons_self) hba
      exact ⟨a.2, rfl, least_gem1 (h1 a rfl) fun x hx =>
        Scalar.Ordered.le_trans hab (h2 b rfl x hx)⟩

end Choice

section Result

variable [Scalar.Ordered α]

theorem head_least (s : MatchSettings α) (hit : CaloHit α) (tracker : List (TrackerHit α)) :
    ∀ a ∈ (s.candidates hit tracker).head?, ∀ x ∈ s.candidates hit tracker, a.2 ≤ x.2 := by
  intro a ha x hx
  have hsorted := candidates_sorted s hit tracker
  obtain ⟨rest, hrest⟩ := List.head?_eq_some_iff.mp ha
  have hnumber := number_of_inside (mem_inside.mpr (mem_candidates.mp hx))
  rw [hrest] at hsorted hx
  rcases List.mem_cons.mp hx with rfl | hx
  · exact hnumber
  · rcases (List.pairwise_cons.mp hsorted).1 x hx with hlt | ⟨hsame, -⟩
    · exact Scalar.Ordered.le_of_lt hlt
    · exact of_decide_eq_true (Bool.and_eq_true_iff.mp hsame).1

theorem matched_matchHit (s : MatchSettings α) (gem1 gem2 : List (TrackerHit α))
    (hit : CaloHit α × Nat) : Matched s gem1 gem2 hit (s.matchHit gem1 gem2 hit.1 hit.2) where
  position := rfl
  ranked_gem1 := ranked_candidates s hit.1 gem1
  ranked_gem2 := ranked_candidates s hit.1 gem2
  gem1_eq := List.head?_map.symm
  gem2_eq := List.head?_map.symm
  best_none := by
    simpa [matchHit] using choose_none (s.candidates hit.1 gem1) (s.candidates hit.1 gem2)
  best_nearest p i h := by
    obtain ⟨d, hhead, hleast⟩ :=
      choose_nearest (head_least s hit.1 gem1) (head_least s hit.1 gem2) h
    simp only [matchHit, sides_map, sides_candidates] at hhead hleast ⊢
    refine ⟨by rw [List.head?_map, hhead, Option.map_some], d,
      (mem_candidates.mp (List.mem_of_head? hhead)).1, ?_⟩
    intro q j hj e he
    obtain ⟨e', he', hwindow⟩ := mem_ranked.mp hj
    obtain rfl := Option.mem_unique he he'
    exact hleast q (j, e) (mem_candidates.mpr ⟨he, hwindow⟩)
  flags f := by
    simpa [matchHit] using test_choose (s.candidates hit.1 gem1) (s.candidates hit.1 gem2) f
  overlap := by
    simpa [matchHit, Match.isOverlap] using
      test_choose (s.candidates hit.1 gem1) (s.candidates hit.1 gem2) .overlapMatch

end Result

theorem unsigned_of_inside {s : MatchSettings Float32} {hit : CaloHit Float32}
    {tracker : List (TrackerHit Float32)} {x : Nat × Float32} (h : x ∈ s.inside hit tracker) :
    SinglePrecision.Unsigned x.2.toModel.unpack := by
  have hnumber := number_of_inside h
  obtain ⟨t, -, heq⟩ := Option.map_eq_some_iff.mp (mem_inside.mp h).1
  rw [← heq] at hnumber ⊢
  exact SinglePrecision.unsigned_hypot hnumber

/-- Every calorimeter hit is told, in turn, which hits of each tracker lie inside its window,
nearest first and of equally near ones the first one first, and the nearest of both trackers. In
single precision the same candidates come in the same order when they are sorted by the words of
their distances. -/
theorem matches_nearest_first (s : MatchSettings Float32) (calo : List (CaloHit Float32))
    (gem1 gem2 : List (TrackerHit Float32)) :
    List.Forall₂ (Matched s gem1 gem2) calo.zipIdx (s.matchHits calo gem1 gem2) ∧
      ∀ (hit : CaloHit Float32) (tracker : List (TrackerHit Float32)),
        s.candidates hit tracker = (s.inside hit tracker).mergeSort fun a b =>
          SinglePrecision.totalPlace a.2 ≤ SinglePrecision.totalPlace b.2 := by
  constructor
  · rw [matchHits, List.forall₂_map_right_iff, List.forall₂_same]
    exact fun hit _ => matched_matchHit s gem1 gem2 hit
  · intro hit tracker
    apply mergeSort_congr
    intro a ha b hb
    rw [decide_eq_decide]
    exact (SinglePrecision.totalPlace_le_iff (unsigned_of_inside ha) (unsigned_of_inside hb)).symm

end MatchSettings

end ShowerTrack
