import Mathlib
import ShowerTrack.Calorimeter.Profile
import ShowerTrack.Proofs.Exact

/-!
# Interpolation

Inside the range of a profile the place between the four nodes around it is a proper one: both
offsets lie between 0 and 1. What is interpolated there lies between the nodes.
-/

set_option autoImplicit false

namespace ShowerTrack
namespace Profile

variable {α : Type} [Exact α]

theorem step_eq : (step : α) = 1 / 50 := by
  unfold step
  norm_num

theorem range_eq : (range : α) = 5 := by
  unfold range
  norm_num

theorem cellIndex_eq {d : α} (h : d < range) : cellIndex (d / step) = ⌊d / step⌋₊ := by
  rw [range_eq] at h
  have hless : d / step < ((250 : Nat) : α) := by
    rw [step_eq, Nat.cast_ofNat]
    linarith
  have hfloor : ⌊d / step⌋₊ < 250 := (Nat.floor_lt' (by norm_num)).mpr hless
  rw [cellIndex, Exact.truncate_eq, bins]
  exact Nat.min_eq_left (by omega)

theorem offset_mem {d : α} (h₀ : 0 ≤ d) (h : d < range) :
    0 ≤ d / step - Scalar.ofNat (cellIndex (d / step)) ∧
      d / step - Scalar.ofNat (cellIndex (d / step)) ≤ 1 := by
  rw [cellIndex_eq h, Exact.ofNat_eq]
  have hpos : 0 ≤ d / step := by
    rw [step_eq]
    positivity
  have hlow := Nat.floor_le hpos
  have hhigh := Nat.lt_floor_add_one (d / step)
  constructor
  · linarith
  · linarith

theorem le_interpolate {tx ty low v00 v10 v01 v11 : α} (hx : 0 ≤ tx ∧ tx ≤ 1)
    (hy : 0 ≤ ty ∧ ty ≤ 1) (h00 : low ≤ v00) (h10 : low ≤ v10) (h01 : low ≤ v01)
    (h11 : low ≤ v11) : low ≤ interpolate tx ty v00 v10 v01 v11 := by
  obtain ⟨hx₀, hx₁⟩ := hx
  obtain ⟨hy₀, hy₁⟩ := hy
  have hexcess : interpolate tx ty v00 v10 v01 v11 - low =
      (1 - tx) * (1 - ty) * (v00 - low) + tx * (1 - ty) * (v10 - low) +
        (1 - tx) * ty * (v01 - low) + tx * ty * (v11 - low) := by
    simp only [interpolate, Exact.one_eq]
    ring
  have hnonneg : 0 ≤ interpolate tx ty v00 v10 v01 v11 - low := by
    rw [hexcess]
    have hx₂ : 0 ≤ 1 - tx := sub_nonneg.mpr hx₁
    have hy₂ : 0 ≤ 1 - ty := sub_nonneg.mpr hy₁
    have k00 : 0 ≤ v00 - low := sub_nonneg.mpr h00
    have k10 : 0 ≤ v10 - low := sub_nonneg.mpr h10
    have k01 : 0 ≤ v01 - low := sub_nonneg.mpr h01
    have k11 : 0 ≤ v11 - low := sub_nonneg.mpr h11
    positivity
  exact sub_nonneg.mp hnonneg

structure Nonneg (p : Profile α) : Prop where
  glass : ∀ v ∈ p.glass, 0 ≤ v
  crystal : ∀ v ∈ p.crystal, 0 ≤ v

theorem nonneg_of_mem_tabulate {fraction : α → α → α} {v : α} (h : v ∈ tabulate fraction) :
    0 ≤ v := by
  rw [tabulate, Array.mem_ofFn] at h
  -- the number of nodes is too large to be taken apart
  generalize bins * bins = n at h
  obtain ⟨k, rfl⟩ := h
  exact Exact.max_zero_nonneg _

/-- What a profile is made from may be negative, its tables are not. -/
theorem nonneg_ofFractions (fraction : BlockKind → α → α → α) : (ofFractions fraction).Nonneg := by
  have htables : ∀ a b : Array α, (∀ v ∈ a, 0 ≤ v) → (∀ v ∈ b, 0 ≤ v) → Nonneg ⟨a, b⟩ :=
    fun _ _ ha hb => ⟨ha, hb⟩
  exact htables _ _ (fun _ => nonneg_of_mem_tabulate) fun _ => nonneg_of_mem_tabulate

theorem node_nonneg {p : Profile α} (h : p.Nonneg) (kind : BlockKind) (ix iy : Nat) :
    0 ≤ p.node kind ix iy := by
  have htable : ∀ v ∈ p.table kind, 0 ≤ v := by
    cases kind with
    | glass => exact h.glass
    | crystal => exact h.crystal
  rw [node, Exact.zero_eq]
  exact Exact.getD_nonneg htable _

theorem fraction_nonneg {p : Profile α} (h : p.Nonneg) (kind : BlockKind) (dx dy : α) :
    0 ≤ p.fraction kind dx dy := by
  simp only [fraction, Exact.abs_eq]
  split
  · simp
  · rename_i hinside
    rw [not_or, not_le, not_le] at hinside
    exact le_interpolate (offset_mem (abs_nonneg dx) hinside.1)
      (offset_mem (abs_nonneg dy) hinside.2) (node_nonneg h _ _ _) (node_nonneg h _ _ _)
      (node_nonneg h _ _ _) (node_nonneg h _ _ _)

end Profile

end ShowerTrack
