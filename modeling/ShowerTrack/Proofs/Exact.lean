import Mathlib
import ShowerTrack.Proofs.Distances

/-!
# Exact arithmetic

Scalars without rounding: an ordered field with integer parts and square roots, such as the real
numbers. What the reconstruction computes over them is what it means to compute.
-/

set_option autoImplicit false

namespace ShowerTrack

class Exact (α : Type) extends Field α, LinearOrder α, IsStrictOrderedRing α, FloorSemiring α where
  sqrt : α → α
  sqrt_nonneg : ∀ a, 0 ≤ sqrt a
  mul_self_sqrt : ∀ a, 0 ≤ a → sqrt a * sqrt a = a

noncomputable instance : Exact ℝ where
  sqrt := Real.sqrt
  sqrt_nonneg := Real.sqrt_nonneg
  mul_self_sqrt _ := Real.mul_self_sqrt

namespace Exact

variable {α : Type} [Exact α]

instance (priority := low) scalar : Scalar α where
  decLt a b := inferInstanceAs (Decidable (a < b))
  decLe a b := inferInstanceAs (Decidable (a ≤ b))
  ofNat n := n
  ofInt n := n
  truncate a := ⌊a⌋₊
  abs a := |a|
  sqrt := sqrt

@[simp] theorem zero_eq : @OfNat.ofNat α 0 (Scalar.instOfNat 0) = 0 := Nat.cast_zero

@[simp] theorem one_eq : @OfNat.ofNat α 1 (Scalar.instOfNat 1) = 1 := Nat.cast_one

@[simp] theorem ofNat_eq (n : Nat) : (Scalar.ofNat n : α) = n := rfl

@[simp] theorem truncate_eq (a : α) : Scalar.truncate a = ⌊a⌋₊ := rfl

@[simp] theorem abs_eq (a : α) : Scalar.abs a = |a| := rfl

theorem max_eq (a b : α) : Scalar.max a b = Max.max a b := by
  rw [Scalar.max, Scalar.isNumber, decide_eq_true le_rfl, if_pos rfl]
  split
  · rename_i h
    exact (max_eq_right h.le).symm
  · rename_i h
    exact (max_eq_left (not_lt.mp h)).symm

theorem max_zero_nonneg (a : α) : 0 ≤ Scalar.max a (Scalar.ofNat 0) := by
  rw [max_eq, ofNat_eq, Nat.cast_zero]
  exact le_max_right a 0

theorem foldl_add_eq (xs : List α) (a : α) : xs.foldl (· + ·) a = a + xs.sum := by
  induction xs generalizing a with
  | nil => simp
  | cons x xs ih => rw [List.foldl_cons, ih, List.sum_cons, add_assoc]

def increased (start : α) (xs : List α) : α := start + xs.sum

theorem foldl_eq_increased :
    (fun (start : α) (xs : List α) => xs.foldl (· + ·) start) = increased :=
  funext fun start => funext fun xs => foldl_add_eq xs start

theorem sum_eq (xs : List α) : Scalar.sum xs = xs.sum := by
  rw [Scalar.sum, foldl_add_eq]
  simp

theorem getD_nonneg {row : Array α} (h : ∀ v ∈ row, 0 ≤ v) (k : Nat) : 0 ≤ row.getD k 0 := by
  rw [Array.getD_eq_getD_getElem?]
  by_cases hk : k < row.size
  · rw [Array.getElem?_eq_getElem hk, Option.getD_some]
    exact h _ (Array.getElem_mem hk)
  · rw [Array.getElem?_eq_none (by omega), Option.getD_none]

instance : Scalar.Undirected α where
  square_swap x y s t := by
    rw [add_comm t s]
    ring

end Exact

/-- Exact scalars with the transcendental functions of the reconstruction, whatever they are. -/
class ExactElementary (α : Type) extends Exact α where
  ln : α → α
  log2 : α → α
  sin : α → α
  cos : α → α
  hypot : α → α → α

instance (priority := low) ExactElementary.elementary {α : Type} [ExactElementary α] :
    Elementary α where
  toScalar := Exact.scalar
  ln := ExactElementary.ln
  log2 := ExactElementary.log2
  sin := ExactElementary.sin
  cos := ExactElementary.cos
  hypot := ExactElementary.hypot

noncomputable instance : ExactElementary ℝ where
  ln := Real.log
  log2 := Real.logb 2
  sin := Real.sin
  cos := Real.cos
  hypot x y := Real.sqrt (x * x + y * y)

end ShowerTrack
