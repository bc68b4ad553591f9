import Mathlib
import ShowerTrack.Proofs.Checked.Profile
import ShowerTrack.Proofs.Interpolation

/-!
# Tents

Inside its range a profile is a sum of tents, one over each node and as high as the node says. So it
is continuous, and as even and symmetric as its table. Between nodes it takes values between theirs.
-/

set_option autoImplicit false

namespace ShowerTrack
namespace Profile

section Tent

variable {α : Type} [Field α] [LinearOrder α] [IsStrictOrderedRing α]

def tent (u : α) : α := max 0 (1 - |u|)

theorem tent_of_far {u : α} (h : 1 ≤ |u|) : tent u = 0 :=
  max_eq_left (sub_nonpos.mpr h)

theorem tent_of_near {u : α} (h : |u| ≤ 1) : tent u = 1 - |u| :=
  max_eq_right (sub_nonneg.mpr h)

/-- Of the tents over a line, two reach a place. -/
theorem sum_tent [FloorSemiring α] (c : Nat → α) {u : α} {n : Nat} (h₀ : 0 ≤ u)
    (hn : ⌊u⌋₊ + 1 < n) :
    ∑ i ∈ Finset.range n, tent (u - i) * c i =
      (1 - (u - ⌊u⌋₊)) * c ⌊u⌋₊ + (u - ⌊u⌋₊) * c (⌊u⌋₊ + 1) := by
  have hlow := Nat.floor_le h₀
  have hhigh := Nat.lt_floor_add_one u
  have hleft : tent (u - ⌊u⌋₊) = 1 - (u - ⌊u⌋₊) := by
    have habs : |u - ⌊u⌋₊| = u - ⌊u⌋₊ := abs_of_nonneg (by linarith)
    rw [tent_of_near (by rw [habs]; linarith), habs]
  have hright : tent (u - (⌊u⌋₊ + 1 : Nat)) = u - ⌊u⌋₊ := by
    have habs : |u - (⌊u⌋₊ + 1 : Nat)| = ⌊u⌋₊ + 1 - u := by
      rw [abs_of_nonpos (by push_cast; linarith)]
      push_cast
      ring
    rw [tent_of_near (by rw [habs]; linarith), habs]
    ring
  have hrest : ∀ i ∈ Finset.range n, i ≠ ⌊u⌋₊ ∧ i ≠ ⌊u⌋₊ + 1 → tent (u - i) * c i = 0 := by
    intro i _ hi
    -- every other node is a step away at least
    have hfar : 1 ≤ |u - i| := by
      obtain hbelow | habove : i + 1 ≤ ⌊u⌋₊ ∨ ⌊u⌋₊ + 2 ≤ i := by omega
      · have hcast : (i : α) + 1 ≤ ⌊u⌋₊ := by exact_mod_cast hbelow
        exact le_abs.mpr (.inl (by linarith))
      · have hcast : (⌊u⌋₊ : α) + 2 ≤ i := by exact_mod_cast habove
        exact le_abs.mpr (.inr (by linarith))
    rw [tent_of_far hfar, zero_mul]
  rw [Finset.sum_eq_add_of_mem _ _ (Finset.mem_range.mpr (by omega)) (Finset.mem_range.mpr hn)
    (by omega) hrest, hleft, hright]

omit [Field α] [IsStrictOrderedRing α] in
theorem exists_largest (c : Nat → Nat → α) {n : Nat} (h : 0 < n) :
    ∃ i < n, ∃ j < n, ∀ k < n, ∀ l < n, c k l ≤ c i j := by
  have hrange : (Finset.range n).Nonempty := Finset.nonempty_range_iff.mpr h.ne'
  obtain ⟨⟨i, j⟩, hmem, hlargest⟩ :=
    Finset.exists_max_image _ (fun ij => c ij.1 ij.2) (hrange.product hrange)
  rw [Finset.mem_product, Finset.mem_range, Finset.mem_range] at hmem
  refine ⟨i, hmem.1, j, hmem.2, ?_⟩
  intro k hk l hl
  apply hlargest (k, l)
  rw [Finset.mem_product, Finset.mem_range, Finset.mem_range]
  exact ⟨hk, hl⟩

end Tent

section Table

variable {α : Type} [Exact α]

theorem interpolate_eq (tx ty v00 v10 v01 v11 : α) : interpolate tx ty v00 v10 v01 v11 =
    (1 - tx) * ((1 - ty) * v00 + ty * v01) + tx * ((1 - ty) * v10 + ty * v11) := by
  simp only [interpolate, Exact.one_eq]
  ring

theorem interpolate_le {tx ty high v00 v10 v01 v11 : α} (hx : 0 ≤ tx ∧ tx ≤ 1)
    (hy : 0 ≤ ty ∧ ty ≤ 1) (h00 : v00 ≤ high) (h10 : v10 ≤ high) (h01 : v01 ≤ high)
    (h11 : v11 ≤ high) : interpolate tx ty v00 v10 v01 v11 ≤ high := by
  have hneg : interpolate tx ty (-v00) (-v10) (-v01) (-v11) =
      -interpolate tx ty v00 v10 v01 v11 := by
    simp only [interpolate_eq]
    ring
  have hlow := le_interpolate hx hy (neg_le_neg h00) (neg_le_neg h10) (neg_le_neg h01)
    (neg_le_neg h11)
  rw [hneg] at hlow
  exact neg_le_neg_iff.mp hlow

theorem step_pos : (0 : α) < step := by
  rw [step_eq]
  positivity

structure InCell (i j : Nat) (dx dy : α) : Prop where
  column : i + 1 < bins
  row : j + 1 < bins
  across : i * step ≤ |dx| ∧ |dx| < (i + 1) * step
  along : j * step ≤ |dy| ∧ |dy| < (j + 1) * step

theorem cellIndex_bounds {d : α} (h₀ : 0 ≤ d) (h : d < range) :
    cellIndex (d / step) + 1 < bins ∧
      cellIndex (d / step) * step ≤ d ∧ d < (cellIndex (d / step) + 1) * step := by
  refine ⟨cellIndex_succ_lt _, ?_⟩
  rw [cellIndex_eq h, ← le_div_iff₀ step_pos, ← div_lt_iff₀ step_pos]
  exact ⟨Nat.floor_le (div_nonneg h₀ step_pos.le), Nat.lt_floor_add_one _⟩

theorem inCell {dx dy : α} (hx : |dx| < range) (hy : |dy| < range) :
    InCell (cellIndex (|dx| / step)) (cellIndex (|dy| / step)) dx dy := by
  obtain ⟨hcolumn, hacross⟩ := cellIndex_bounds (abs_nonneg dx) hx
  obtain ⟨hrow, halong⟩ := cellIndex_bounds (abs_nonneg dy) hy
  exact ⟨hcolumn, hrow, hacross, halong⟩

variable (p : Profile α) (kind : BlockKind)

theorem fraction_outside {dx dy : α} (h : range ≤ |dx| ∨ range ≤ |dy|) :
    p.fraction kind dx dy = 0 := by
  simp only [fraction, Exact.abs_eq, if_pos h, Exact.zero_eq]

theorem fraction_inside {dx dy : α} (hx : |dx| < range) (hy : |dy| < range) :
    p.fraction kind dx dy =
      let i := cellIndex (|dx| / step)
      let j := cellIndex (|dy| / step)
      interpolate (|dx| / step - i) (|dy| / step - j) (p.node kind i j) (p.node kind (i + 1) j)
        (p.node kind i (j + 1)) (p.node kind (i + 1) (j + 1)) := by
  have hinside : ¬(range ≤ |dx| ∨ range ≤ |dy|) := by
    rw [not_or, not_le, not_le]
    exact ⟨hx, hy⟩
  simp only [fraction, Exact.abs_eq, if_neg hinside, Exact.ofNat_eq]

theorem fraction_eq_sum {dx dy : α} (hx : |dx| < range) (hy : |dy| < range) :
    p.fraction kind dx dy = ∑ i ∈ Finset.range bins, tent (|dx| / step - i) *
      ∑ j ∈ Finset.range bins, tent (|dy| / step - j) * p.node kind i j := by
  have hcell := inCell hx hy
  have hpos : ∀ d : α, 0 ≤ |d| / step := fun d => div_nonneg (abs_nonneg d) step_pos.le
  rw [fraction_inside p kind hx hy]
  simp only [cellIndex_eq hx, cellIndex_eq hy] at hcell ⊢
  rw [sum_tent _ (hpos dx) hcell.column, sum_tent _ (hpos dy) hcell.row,
    sum_tent _ (hpos dy) hcell.row, interpolate_eq]

def lowest (i j : Nat) : α :=
  min (min (p.node kind i j) (p.node kind (i + 1) j))
    (min (p.node kind i (j + 1)) (p.node kind (i + 1) (j + 1)))

def highest (i j : Nat) : α :=
  max (max (p.node kind i j) (p.node kind (i + 1) j))
    (max (p.node kind i (j + 1)) (p.node kind (i + 1) (j + 1)))

theorem fraction_between {dx dy : α} (hx : |dx| < range) (hy : |dy| < range) :
    ∃ i j, InCell i j dx dy ∧ p.lowest kind i j ≤ p.fraction kind dx dy ∧
      p.fraction kind dx dy ≤ p.highest kind i j := by
  have hacross := offset_mem (abs_nonneg dx) hx
  have halong := offset_mem (abs_nonneg dy) hy
  rw [fraction_inside p kind hx hy]
  refine ⟨_, _, inCell hx hy, ?_, ?_⟩
  · exact le_interpolate hacross halong
      ((min_le_left _ _).trans (min_le_left _ _)) ((min_le_left _ _).trans (min_le_right _ _))
      ((min_le_right _ _).trans (min_le_left _ _)) ((min_le_right _ _).trans (min_le_right _ _))
  · exact interpolate_le hacross halong
      ((le_max_left _ _).trans (le_max_left _ _)) ((le_max_right _ _).trans (le_max_left _ _))
      ((le_max_left _ _).trans (le_max_right _ _)) ((le_max_right _ _).trans (le_max_right _ _))

theorem fraction_node {i j : Nat} (hi : (i : α) * step < range) (hj : (j : α) * step < range) :
    p.fraction kind (i * step) (j * step) = p.node kind i j := by
  have habs : ∀ k : Nat, |(k : α) * step| = k * step := fun k =>
    abs_of_nonneg (mul_nonneg (Nat.cast_nonneg k) step_pos.le)
  have hplace : ∀ k : Nat, (k : α) * step / step = k := fun k =>
    mul_div_cancel_right₀ _ step_pos.ne'
  rw [fraction_inside p kind (by rwa [habs]) (by rwa [habs])]
  simp only [habs]
  rw [cellIndex_eq hi, cellIndex_eq hj, hplace, hplace, Nat.floor_natCast, Nat.floor_natCast,
    interpolate_eq]
  ring

theorem fraction_abs (dx dy : α) : p.fraction kind |dx| |dy| = p.fraction kind dx dy := by
  simp only [fraction, Exact.abs_eq, abs_abs]

theorem node_ofFractions (f : BlockKind → α → α → α) {i j : Nat} (hi : i < bins) (hj : j < bins) :
    (ofFractions f).node kind i j =
      max (f kind ((max i j : Nat) * step) ((min i j : Nat) * step)) 0 := by
  -- for any number of nodes, as this one is too large to count with
  have hplace : ∀ n, j < n → (i * n + j) / n = i ∧ (i * n + j) % n = j := by
    intro n hn
    rw [Nat.add_comm, Nat.add_mul_div_right _ _ (Nat.zero_lt_of_lt hn), Nat.add_mul_mod_self_right,
      Nat.div_eq_of_lt hn, Nat.mod_eq_of_lt hn, Nat.zero_add]
    exact ⟨rfl, rfl⟩
  obtain ⟨hdiv, hmod⟩ := hplace bins hj
  have htable : (ofFractions f).table kind = tabulate (f kind) := by
    cases kind with
    | glass => rw [ofFractions, table]
    | crystal => rw [ofFractions, table]
  have hbound := Checked.flat_lt hi hj
  rw [node, htable, tabulate, Array.getD_eq_getD_getElem?, Array.getElem?_ofFn, dif_pos hbound,
    Option.getD_some]
  simp only [hdiv, hmod, Exact.max_eq, Exact.ofNat_eq, Exact.zero_eq]

theorem node_comm (f : BlockKind → α → α → α) {i j : Nat} (hi : i < bins) (hj : j < bins) :
    (ofFractions f).node kind i j = (ofFractions f).node kind j i := by
  rw [node_ofFractions kind f hi hj, node_ofFractions kind f hj hi, max_comm i j, min_comm i j]

theorem fraction_comm (f : BlockKind → α → α → α) (dx dy : α) :
    (ofFractions f).fraction kind dx dy = (ofFractions f).fraction kind dy dx := by
  by_cases houtside : range ≤ |dx| ∨ range ≤ |dy|
  · rw [fraction_outside _ kind houtside, fraction_outside _ kind houtside.symm]
  · rw [not_or, not_le, not_le] at houtside
    obtain ⟨hx, hy⟩ := houtside
    rw [fraction_eq_sum _ kind hx hy, fraction_eq_sum _ kind hy hx]
    -- both sum over all nodes, one by columns and one by rows
    simp only [Finset.mul_sum]
    rw [Finset.sum_comm]
    apply Finset.sum_congr rfl
    intro j hj
    apply Finset.sum_congr rfl
    intro i hi
    rw [node_comm kind f (Finset.mem_range.mp hi) (Finset.mem_range.mp hj), mul_left_comm]

theorem fraction_le {p : Profile α} (hp : p.Nonneg) {i j : Nat}
    (h : ∀ k < bins, ∀ l < bins, p.node kind k l ≤ p.node kind i j) (dx dy : α) :
    p.fraction kind dx dy ≤ p.node kind i j := by
  by_cases houtside : range ≤ |dx| ∨ range ≤ |dy|
  · rw [fraction_outside p kind houtside]
    exact node_nonneg hp kind i j
  · rw [not_or, not_le, not_le] at houtside
    obtain ⟨k, l, hcell, -, hle⟩ := fraction_between p kind houtside.1 houtside.2
    have hcolumn := Nat.lt_of_succ_lt hcell.column
    have hrow := Nat.lt_of_succ_lt hcell.row
    exact hle.trans (max_le
      (max_le (h _ hcolumn _ hrow) (h _ hcell.column _ hrow))
      (max_le (h _ hcolumn _ hcell.row) (h _ hcell.column _ hcell.row)))

end Table

section Real

theorem continuous_tent : Continuous (tent : ℝ → ℝ) := by
  unfold tent
  fun_prop

theorem continuousOn_fraction (p : Profile ℝ) (kind : BlockKind) :
    ContinuousOn (fun d : ℝ × ℝ => p.fraction kind d.1 d.2)
      { d | |d.1| < range ∧ |d.2| < range } := by
  have hsum : Continuous fun d : ℝ × ℝ => ∑ i ∈ Finset.range bins, tent (|d.1| / step - i) *
      ∑ j ∈ Finset.range bins, tent (|d.2| / step - j) * p.node kind i j := by
    have htent := continuous_tent
    fun_prop
  apply hsum.continuousOn.congr
  intro d hd
  exact fraction_eq_sum p kind hd.1 hd.2

/-- What is looked up in a table: nothing out of range, a node on a node, and between nodes a value
between theirs that does not jump. -/
structure Interpolates (f : BlockKind → ℝ → ℝ → ℝ) (kind : BlockKind) (p : Profile ℝ) : Prop where
  table : ∀ i < bins, ∀ j < bins,
    p.node kind i j = max (f kind ((max i j : Nat) * step) ((min i j : Nat) * step)) 0
  outside : ∀ dx dy, range ≤ |dx| ∨ range ≤ |dy| → p.fraction kind dx dy = 0
  inside : ∀ dx dy, |dx| < range → |dy| < range → ∃ i j, InCell i j dx dy ∧
    p.lowest kind i j ≤ p.fraction kind dx dy ∧ p.fraction kind dx dy ≤ p.highest kind i j
  /-- No node beside the table is read. -/
  checked : ∀ dx dy, Checked.fraction p kind dx dy = some (p.fraction kind dx dy)
  nonneg : ∀ dx dy, 0 ≤ p.fraction kind dx dy
  largest : ∃ i < bins, ∃ j < bins,
    (∀ k < bins, ∀ l < bins, p.node kind k l ≤ p.node kind i j) ∧
      ∀ dx dy, p.fraction kind dx dy ≤ p.node kind i j
  nodes : ∀ i j : Nat, i * step < (range : ℝ) → j * step < (range : ℝ) →
    p.fraction kind (i * step) (j * step) = p.node kind i j
  continuous : ContinuousOn (fun d : ℝ × ℝ => p.fraction kind d.1 d.2)
    { d | |d.1| < range ∧ |d.2| < range }
  mirrored : ∀ dx dy, p.fraction kind (-dx) dy = p.fraction kind dx dy ∧
    p.fraction kind dx (-dy) = p.fraction kind dx dy
  exchanged : ∀ dx dy, p.fraction kind dy dx = p.fraction kind dx dy

/-- Whatever the table is made from, negative fractions and lopsided ones included. -/
theorem profile_interpolates (f : BlockKind → ℝ → ℝ → ℝ) (kind : BlockKind) :
    Interpolates f kind (ofFractions f) where
  table i hi j hj := node_ofFractions kind f hi hj
  outside dx dy h := fraction_outside _ kind h
  inside dx dy hx hy := fraction_between _ kind hx hy
  checked dx dy := Checked.fraction_eq (full_ofFractions f) kind dx dy
  nonneg dx dy := fraction_nonneg (nonneg_ofFractions f) kind dx dy
  largest := by
    obtain ⟨i, hi, j, hj, hlargest⟩ :=
      exists_largest ((ofFractions f).node kind) (show 0 < bins by decide)
    exact ⟨i, hi, j, hj, hlargest, fraction_le kind (nonneg_ofFractions f) hlargest⟩
  nodes i j hi hj := fraction_node _ kind hi hj
  continuous := continuousOn_fraction _ kind
  mirrored dx dy := by
    constructor
    · rw [← fraction_abs, abs_neg, fraction_abs]
    · rw [← fraction_abs, abs_neg, fraction_abs]
  exchanged dx dy := fraction_comm kind f dy dx

end Real

end Profile

end ShowerTrack
