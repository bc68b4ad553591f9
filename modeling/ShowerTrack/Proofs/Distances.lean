import Mathlib
import ShowerTrack.Calorimeter.Block

/-!
# Distances

A distance between two blocks has no direction: swapping the blocks turns the signs of their
separations, and the squares forget the signs. Rounding keeps this, since it treats both signs
alike, so that it holds in single precision too, also for what is no number.
-/

set_option autoImplicit false

namespace ShowerTrack

/-- Scalars in which the square of a normalized separation does not depend on its direction. -/
class Scalar.Undirected (α : Type) [Scalar α] : Prop where
  square_swap (x y s t : α) :
    2 * (y - x) / (s + t) * (2 * (y - x) / (s + t)) =
      2 * (x - y) / (t + s) * (2 * (x - y) / (t + s))

section Undirected

variable {α : Type} [Scalar α] [Scalar.Undirected α]

theorem Placement.distance_comm (a b : Placement α) : a.distance b = b.distance a := by
  simp only [distance, spacing]
  rw [Scalar.Undirected.square_swap a.x b.x, Scalar.Undirected.square_swap a.y b.y]

theorem BlockHit.distance_comm (a b : BlockHit α) : a.distance b = b.distance a :=
  Placement.distance_comm a.place b.place

theorem BlockHit.isAdjacent_comm (corners : Bool) (a b : BlockHit α) :
    a.isAdjacent corners b = b.isAdjacent corners a := by
  rw [isAdjacent, isAdjacent, BlockHit.distance_comm]

end Undirected

namespace SinglePrecision

open Float.Model (Format UnpackedFloat)
open Float.Model.UnpackedFloat (Sign Accuracy)

variable {f : Format} {u v w : UnpackedFloat}

/-- Floats that differ at most in their signs. -/
inductive UpToSign : UnpackedFloat → UnpackedFloat → Prop
  | notANumber : UpToSign .notANumber .notANumber
  | infinity (s t : Sign) : UpToSign (.infinity s) (.infinity t)
  | zero (s t : Sign) : UpToSign (.zero s) (.zero t)
  | finite (s t : Sign) (m e hm) : UpToSign (.finite s m e hm) (.finite t m e hm)

theorem upToSign_of_abs (h : u.abs = v.abs) : UpToSign u v := by
  cases u <;> cases v <;> simp only [UnpackedFloat.abs, reduceCtorEq,
    UnpackedFloat.finite.injEq] at h
  · exact .infinity _ _
  · exact .notANumber
  · exact .zero _ _
  · obtain ⟨-, rfl, rfl⟩ := h
    exact .finite _ _ _ _ _

theorem abs_unpack_packComponents (s t : Sign) (e : BitVec f.exponentBits)
    (m : BitVec f.mantissaBitsWithoutImplicit) :
    (UnpackedFloat.unpack f (UnpackedFloat.packComponents f s e m)).abs =
      (UnpackedFloat.unpack f (UnpackedFloat.packComponents f t e m)).abs := by
  simp only [UnpackedFloat.unpack, UnpackedFloat.unpackExponent_packComponents,
    UnpackedFloat.unpackMantissa_packComponents]
  split_ifs <;> rfl

theorem abs_unpack_pack (h : u.abs = v.abs) :
    (UnpackedFloat.unpack f (UnpackedFloat.pack f u)).abs =
      (UnpackedFloat.unpack f (UnpackedFloat.pack f v)).abs := by
  cases upToSign_of_abs h with
  | notANumber => rfl
  | infinity s t => exact abs_unpack_packComponents s t _ _
  | zero s t => exact abs_unpack_packComponents s t _ _
  | finite s t m e hm =>
    simp only [UnpackedFloat.pack]
    split_ifs <;> exact abs_unpack_packComponents _ _ _ _

theorem abs_roundWithAccuracy (s t : Sign) (m : Nat) (e : Int) (a : Accuracy) :
    (UnpackedFloat.roundWithAccuracy f s m e a).abs =
      (UnpackedFloat.roundWithAccuracy f t m e a).abs := by
  simp only [UnpackedFloat.roundWithAccuracy]
  split_ifs <;> rfl

theorem abs_normalize_neg (m e : Int) (z : Sign) :
    (UnpackedFloat.normalize f (-m) e z).abs = (UnpackedFloat.normalize f m e z).abs := by
  simp only [UnpackedFloat.normalize]
  rcases Int.lt_trichotomy m 0 with h | h | h
  · have hneg : compare (-m) 0 = .gt := by rw [Int.compare_eq_gt]; omega
    have hpos : compare m 0 = .lt := by rw [Int.compare_eq_lt]; omega
    rw [hneg, hpos]
    exact abs_roundWithAccuracy _ _ _ _ _
  · subst h
    rfl
  · have hneg : compare (-m) 0 = .lt := by rw [Int.compare_eq_lt]; omega
    have hpos : compare m 0 = .gt := by rw [Int.compare_eq_gt]; omega
    rw [hneg, hpos]
    simp only [Int.neg_neg]
    exact abs_roundWithAccuracy _ _ _ _ _

theorem abs_sub_comm (u v : UnpackedFloat) :
    (UnpackedFloat.sub f u v).abs = (UnpackedFloat.sub f v u).abs := by
  cases u with
  | notANumber => cases v <;> rfl
  | infinity s => cases v with
    | infinity t => cases s <;> cases t <;> rfl
    | _ => rfl
  | zero s => cases v with
    | zero t => cases s <;> cases t <;> rfl
    | _ => rfl
  | finite s m e hm => cases v with
    | finite t n d hn =>
      simp only [UnpackedFloat.sub, Int.min_comm d e]
      rw [← abs_normalize_neg]
      congr 2
      omega
    | _ => rfl

theorem add_comm (u v : UnpackedFloat) : UnpackedFloat.add f u v = UnpackedFloat.add f v u := by
  cases u with
  | notANumber => cases v <;> rfl
  | infinity s => cases v with
    | infinity t => cases s <;> cases t <;> rfl
    | _ => rfl
  | zero s => cases v with
    | zero t => cases s <;> cases t <;> rfl
    | _ => rfl
  | finite s m e hm => cases v with
    | finite t n d hn => simp only [UnpackedFloat.add, Int.min_comm d e, Int.add_comm]
    | _ => rfl

theorem abs_mul (h : u.abs = v.abs) :
    (UnpackedFloat.mul f w u).abs = (UnpackedFloat.mul f w v).abs := by
  cases upToSign_of_abs h with
  | notANumber => rfl
  | infinity s t => cases w <;> rfl
  | zero s t => cases w <;> rfl
  | finite s t m e hm => cases w with
    | finite => exact abs_roundWithAccuracy _ _ _ _ _
    | _ => rfl

theorem abs_div (h : u.abs = v.abs) :
    (UnpackedFloat.div f u w).abs = (UnpackedFloat.div f v w).abs := by
  cases upToSign_of_abs h with
  | notANumber => rfl
  | infinity s t => cases w <;> rfl
  | zero s t => cases w <;> rfl
  | finite s t m e hm => cases w with
    | finite => exact abs_roundWithAccuracy _ _ _ _ _
    | _ => rfl

theorem mul_self (h : u.abs = v.abs) : UnpackedFloat.mul f u u = UnpackedFloat.mul f v v := by
  have square : ∀ s t : Sign, s * s = t * t := by
    intro s t
    cases s <;> cases t <;> rfl
  cases upToSign_of_abs h with
  | notANumber => rfl
  | infinity s t => exact congrArg UnpackedFloat.infinity (square s t)
  | zero s t => exact congrArg UnpackedFloat.zero (square s t)
  | finite s t m e hm =>
    simp only [UnpackedFloat.mul]
    rw [square s t]

/-- Swapping two blocks changes at most the sign of their separation. -/
theorem abs_separation_swap (c x y s t : Float32.Model) :
    (c * (y - x) / (s + t)).unpack.abs = (c * (x - y) / (t + s)).unpack.abs := by
  have hsub := abs_unpack_pack (f := .binary32) (abs_sub_comm (f := .binary32) y.unpack x.unpack)
  have hmul := abs_unpack_pack (f := .binary32) (abs_mul (f := .binary32) (w := c.unpack) hsub)
  have hsum : s + t = t + s :=
    congrArg Float32.Model.pack (add_comm (f := .binary32) s.unpack t.unpack)
  rw [hsum]
  exact abs_unpack_pack (f := .binary32) (abs_div (f := .binary32) (w := (t + s).unpack) hmul)

theorem square_swap (c x y s t : Float32.Model) :
    c * (y - x) / (s + t) * (c * (y - x) / (s + t)) =
      c * (x - y) / (t + s) * (c * (x - y) / (t + s)) :=
  congrArg Float32.Model.pack (mul_self (f := .binary32) (abs_separation_swap c x y s t))

instance : Scalar.Undirected Float32 where
  square_swap x y s t :=
    congrArg Float32.ofModel
      (square_swap (2 : Float32).toModel x.toModel y.toModel s.toModel t.toModel)

end SinglePrecision

end ShowerTrack
