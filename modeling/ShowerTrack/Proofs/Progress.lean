import ShowerTrack.Proofs.Exact
import ShowerTrack.Workers

/-!
# Progress of a worker

A worker reports the multiples of a hundredth of its events as they are done, and all of them when
it returns. As fractions of its events these counts rise from none to all.
-/

set_option autoImplicit false

namespace ShowerTrack

namespace Status

/-- With `waiting` events since the `k`-th report, the next reports are those of the multiples that
are still to come. -/
theorem countsFrom_eq {f : Nat} (hf : 0 < f) {waiting : Nat} (hwaiting : waiting < f)
    (k left : Nat) : countsFrom f (k * f + waiting) waiting left =
      (List.range' (k + 1) ((waiting + left) / f)).map (· * f) := by
  induction left generalizing k waiting with
  | zero =>
    simp [countsFrom, Nat.div_eq_of_lt hwaiting]
  | succ left ih =>
    rw [countsFrom]
    by_cases hfull : f ≤ waiting + 1
    · have hdone : k * f + waiting + 1 = (k + 1) * f + 0 := by
        rw [Nat.add_mul]
        omega
      have hleft : (waiting + (left + 1)) / f = left / f + 1 := by
        rw [show waiting + (left + 1) = left + f by omega, Nat.add_div_right left hf]
      rw [if_pos hfull, hdone, ih hf, hleft, List.range'_succ, Nat.zero_add]
      rfl
    · rw [if_neg hfull, Nat.add_assoc, ih (by omega), Nat.add_right_comm, Nat.add_assoc]

variable {α : Type} [Scalar α]

def multiples (α : Type) [Scalar α] (total : Nat) : List Nat :=
  (List.range (total / interval α total + 1)).map (· * interval α total) ++ [total]

theorem interval_pos (total : Nat) : 0 < interval α total :=
  Nat.lt_of_lt_of_le Nat.one_pos (Nat.le_max_right _ 1)

theorem counts_eq (total : Nat) : counts α total = multiples α total := by
  have hcounts := countsFrom_eq (interval_pos (α := α) total) (interval_pos total) 0 total
  rw [Nat.zero_mul, Nat.zero_add, Nat.zero_add, Nat.zero_add] at hcounts
  rw [counts, hcounts, multiples, List.range_eq_range', List.range'_succ, List.map_cons,
    Nat.zero_mul, Nat.zero_add]

theorem le_of_mem_multiples {total done : Nat} (h : done ∈ multiples α total) : done ≤ total := by
  rcases List.mem_append.mp h with h | h
  · obtain ⟨i, hi, rfl⟩ := List.mem_map.mp h
    have hi : i ≤ total / interval α total := Nat.lt_succ_iff.mp (List.mem_range.mp hi)
    exact (Nat.mul_le_mul_right _ hi).trans (Nat.div_mul_le_self total _)
  · exact (List.mem_singleton.mp h).le

theorem pairwise_multiples (total : Nat) : (multiples α total).Pairwise (· ≤ ·) := by
  rw [multiples, List.pairwise_append]
  refine ⟨?_, List.pairwise_singleton _ _, ?_⟩
  · rw [List.pairwise_map]
    exact List.pairwise_lt_range.imp fun hij => Nat.mul_le_mul_right _ hij.le
  · intro done hdone last hlast
    rw [List.mem_singleton.mp hlast]
    exact le_of_mem_multiples (α := α) (List.mem_append_left _ hdone)

section Fractions

variable {γ : Type} [Exact γ] {total done : Nat}

theorem fractionDone_mem_unit (h : done ≤ total) :
    0 ≤ (fractionDone total done : γ) ∧ (fractionDone total done : γ) ≤ 1 := by
  unfold fractionDone
  split
  · rw [Exact.one_eq]
    exact ⟨zero_le_one, le_rfl⟩
  · rw [Exact.ofNat_eq, Exact.ofNat_eq]
    exact ⟨div_nonneg done.cast_nonneg total.cast_nonneg,
      div_le_one_of_le₀ (Nat.cast_le.mpr h) total.cast_nonneg⟩

theorem fractionDone_self : (fractionDone total total : γ) = 1 := by
  unfold fractionDone
  split
  · exact Exact.one_eq
  · rename_i hne
    exact div_self (Nat.cast_ne_zero.mpr hne)

end Fractions

/-- The messages of a worker so far. They count up in steps of a hundredth of its events, and their
fractions stay between none and all. -/
structure Progresses (total : Nat) (own : List (Status α)) : Prop where
  counts : own.map (·.done) <+: multiples α total
  rising : own.Pairwise fun m n => m.done ≤ n.done
  bounded : ∀ m ∈ own, m.done ≤ total
  progress : ∀ m ∈ own, m.progress = fractionDone total m.done
  fraction : ∀ m ∈ own, ∀ {γ : Type} [Exact γ],
    0 ≤ (fractionDone total m.done : γ) ∧ (fractionDone total m.done : γ) ≤ 1
  few : own.length ≤ total / interval α total + 2

structure Completes (total : Nat) (own : List (Status α)) : Prop extends Progresses total own where
  all : own.map (·.done) = multiples α total
  last : ∃ m ∈ own.getLast?, m.done = total ∧
    ∀ {γ : Type} [Exact γ], (fractionDone total m.done : γ) = 1

section Reports

variable {worker total : Nat} {run : Int} {phase : Phase} {own : List (Status α)}

theorem mem_report {m : Status α} (h : m ∈ report worker run phase total) :
    m.worker = worker ∧ m.progress = fractionDone total m.done := by
  obtain ⟨done, -, rfl⟩ := List.mem_map.mp h
  exact ⟨rfl, rfl⟩

theorem done_report (worker : Nat) (run : Int) (phase : Phase) (total : Nat) :
    (report worker run phase total : List (Status α)).map (·.done) = multiples α total := by
  rw [← counts_eq, report, List.map_map]
  exact List.map_id _

theorem Progresses.of_isPrefix (h : own <+: report worker run phase total) :
    Progresses total own := by
  have hcounts : own.map (·.done) <+: multiples α total := by
    rw [← done_report worker run phase]
    exact h.map _
  have hbounded : ∀ m ∈ own, m.done ≤ total := fun m hm =>
    le_of_mem_multiples (hcounts.subset (List.mem_map_of_mem hm))
  refine ⟨hcounts, ?_, hbounded, ?_, ?_, ?_⟩
  · exact List.pairwise_map.mp ((pairwise_multiples total).sublist hcounts.sublist)
  · intro m hm
    exact (mem_report (h.subset hm)).2
  · intro m hm γ _
    exact fractionDone_mem_unit (hbounded m hm)
  · simpa [multiples] using hcounts.length_le

theorem Completes.of_eq (h : own = report worker run phase total) : Completes total own where
  toProgresses := .of_isPrefix (by rw [h])
  all := h ▸ done_report worker run phase total
  last := by
    have hlast : (own.map (·.done)).getLast? = some total := by
      rw [h, done_report, multiples, List.getLast?_concat]
    rw [List.getLast?_map, Option.map_eq_some_iff] at hlast
    obtain ⟨m, hm, hdone⟩ := hlast
    refine ⟨m, hm, hdone, ?_⟩
    intro γ _
    rw [hdone, fractionDone_self]

end Reports

end Status

end ShowerTrack
