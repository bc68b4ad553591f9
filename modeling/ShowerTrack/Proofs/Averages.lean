import ShowerTrack.Proofs.Exact
import ShowerTrack.Tracker.Pedestal

/-!
# Averages

Levels are summed up as their number, their sum and the sum of their squares. In exact arithmetic
these give their mean and their variance, and say nothing of their order.
-/

set_option autoImplicit false

namespace ShowerTrack

def LevelSum.ofList {α : Type} [Scalar α] (levels : List α) : LevelSum α :=
  levels.foldl LevelSum.add LevelSum.zero

variable {α : Type} [Exact α]

def average (xs : List α) : α := xs.sum / xs.length

def populationVariance (xs : List α) : α :=
  average (xs.map fun x => (x - average xs) * (x - average xs))

theorem average_map {β : Type} (f : β → α) (xs : List β) :
    average (xs.map f) = (xs.map f).sum / xs.length := by
  rw [average, List.length_map]

theorem Exact.mean_eq (xs : List α) : mean xs = average xs := by
  rw [mean, Exact.sum_eq, average]
  rfl

theorem average_nonneg {xs : List α} (h : ∀ x ∈ xs, 0 ≤ x) : 0 ≤ average xs :=
  div_nonneg (List.sum_nonneg h) (Nat.cast_nonneg _)

theorem populationVariance_nonneg (xs : List α) : 0 ≤ populationVariance xs := by
  apply average_nonneg
  intro v hv
  obtain ⟨x, _, rfl⟩ := List.mem_map.mp hv
  exact mul_self_nonneg _

theorem sum_deviations (xs : List α) (m : α) :
    (xs.map fun x => (x - m) * (x - m)).sum =
      (xs.map fun x => x * x).sum - 2 * m * xs.sum + xs.length * (m * m) := by
  induction xs with
  | nil => simp
  | cons x xs ih =>
    rw [List.map_cons, List.sum_cons, ih, List.map_cons, List.sum_cons, List.sum_cons,
      List.length_cons, Nat.cast_succ]
    ring

/-- The mean square less the squared mean is the variance. -/
theorem average_squares_sub {xs : List α} (h : xs ≠ []) :
    average (xs.map fun x => x * x) - average xs * average xs = populationVariance xs := by
  have hlength : (xs.length : α) ≠ 0 := Nat.cast_ne_zero.mpr (mt List.length_eq_zero_iff.mp h)
  have hsum : xs.sum = average xs * xs.length := (div_mul_cancel₀ _ hlength).symm
  rw [populationVariance, average_map, average_map, sum_deviations, hsum]
  field_simp
  ring

namespace LevelSum

theorem ofList_eq (levels : List α) :
    ofList levels = ⟨levels.length, levels.sum, (levels.map fun x => x * x).sum⟩ := by
  have hfold : ∀ s : LevelSum α, levels.foldl add s =
      ⟨s.count + levels.length, s.sum + levels.sum,
        s.squares + (levels.map fun x => x * x).sum⟩ := by
    induction levels with
    | nil => intro s; simp
    | cons x xs ih =>
      intro s
      rw [List.foldl_cons, ih]
      simp only [add, List.length_cons, List.sum_cons, List.map_cons, mk.injEq]
      exact ⟨by omega, by ring, by ring⟩
  rw [ofList, hfold]
  simp [zero]

theorem ofList_append (xs ys : List α) : ofList (xs ++ ys) = (ofList xs).merge (ofList ys) := by
  simp [ofList_eq, merge]

theorem ofList_of_perm {xs ys : List α} (h : xs.Perm ys) : ofList xs = ofList ys := by
  rw [ofList_eq, ofList_eq, h.length_eq, h.sum_eq, (h.map _).sum_eq]

theorem mean_ofList (levels : List α) : (ofList levels).mean = average levels := by
  rw [ofList_eq, mean, average]
  rfl

/-- There is nothing negative for the variance to be kept from. -/
theorem variance_ofList {levels : List α} (h : levels ≠ []) :
    (ofList levels).variance = populationVariance levels ∧
      (ofList levels).squares / Scalar.ofNat (ofList levels).count -
        (ofList levels).mean * (ofList levels).mean = populationVariance levels := by
  have hdifference : (ofList levels).squares / Scalar.ofNat (ofList levels).count -
      (ofList levels).mean * (ofList levels).mean = populationVariance levels := by
    rw [mean_ofList, ← average_squares_sub h, ofList_eq, average_map]
    rfl
  refine ⟨?_, hdifference⟩
  have hnonneg := populationVariance_nonneg levels
  rw [variance, hdifference, Scalar.max, Exact.zero_eq, if_neg hnonneg.not_gt, Scalar.isNumber]
  simp

end LevelSum

end ShowerTrack
