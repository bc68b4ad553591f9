import ShowerTrack.Proofs.Order

/-!
# Lengths

Where a separation is a number along both axes, so is the distance: squares are not negative, and
no rounding turns what is not negative into what is no number.
-/

set_option autoImplicit false

namespace ShowerTrack

/-- Scalars in which two numbers have a length. -/
class Scalar.Measured (α : Type) [Scalar α] : Prop where
  length_number {x y : α} : Scalar.abs x ≤ Scalar.abs x → Scalar.abs y ≤ Scalar.abs y →
    Scalar.sqrt (x * x + y * y) ≤ Scalar.sqrt (x * x + y * y)

instance {α : Type} [Exact α] : Scalar.Measured α where
  length_number _ _ := le_refl _

namespace SinglePrecision

open Float.Model (Format UnpackedFloat)
open Float.Model.UnpackedFloat (Sign Accuracy)

inductive Unsigned : UnpackedFloat → Prop
  | infinity : Unsigned (.infinity .positive)
  | zero : Unsigned (.zero .positive)
  | finite (m e hm) : Unsigned (.finite .positive m e hm)

variable {f : Format} {u v : UnpackedFloat}

theorem Unsigned.rank_isSome (h : Unsigned u) : ∃ r, rank u = some r := by
  cases h <;> exact ⟨_, rfl⟩

theorem unsigned_roundWithAccuracy (m : Nat) (e : Int) (a : Accuracy) :
    Unsigned (UnpackedFloat.roundWithAccuracy f .positive m e a) := by
  simp only [UnpackedFloat.roundWithAccuracy]
  split_ifs
  · exact .zero
  · exact .finite _ _ _

theorem unsigned_normalize (m : Nat) (e : Int) :
    Unsigned (UnpackedFloat.normalize f (m : Int) e .positive) := by
  rw [UnpackedFloat.normalize]
  rcases Nat.eq_zero_or_pos m with rfl | hm
  · exact .zero
  · have hgt : compare (m : Int) 0 = .gt := by rw [Int.compare_eq_gt]; omega
    rw [hgt]
    exact unsigned_roundWithAccuracy _ _ _

theorem unsigned_mul_self (h : u ≠ .notANumber) : Unsigned (UnpackedFloat.mul f u u) := by
  cases u with
  | notANumber => exact absurd rfl h
  | infinity s => cases s <;> exact .infinity
  | zero s => cases s <;> exact .zero
  | finite s m e hm => cases s <;> exact unsigned_roundWithAccuracy _ _ _

theorem Unsigned.add (hu : Unsigned u) (hv : Unsigned v) : Unsigned (UnpackedFloat.add f u v) := by
  cases hu with
  | infinity => cases hv <;> exact .infinity
  | zero => cases hv with
    | infinity => exact .infinity
    | zero => exact .zero
    | finite => exact .finite _ _ _
  | finite m e hm => cases hv with
    | infinity => exact .infinity
    | zero => exact .finite _ _ _
    | finite n d hn =>
      -- the sum of two mantissas without signs is the cast of a natural number
      exact unsigned_normalize _ _

theorem Unsigned.sqrt (h : Unsigned u) : Unsigned (UnpackedFloat.sqrt f u) := by
  cases h with
  | infinity => exact .infinity
  | zero => exact .zero
  | finite m e hm => exact unsigned_roundWithAccuracy _ _ _

theorem unpackSign_packComponents (s : Sign) (e : BitVec f.exponentBits)
    (m : BitVec f.mantissaBitsWithoutImplicit) :
    UnpackedFloat.unpackSign (UnpackedFloat.packComponents f s e m) = s.toBitVec := by
  ext i hi
  obtain rfl : i = 0 := by omega
  simp [UnpackedFloat.unpackSign, UnpackedFloat.packComponents, BitVec.getLsbD_append,
    BitVec.getLsbD_eq_getElem, BitVec.getElem_append]

/-- Only a full exponent with a mantissa is taken apart into what is no number. -/
theorem unsigned_unpack_packComponents {e : BitVec f.exponentBits}
    {m : BitVec f.mantissaBitsWithoutImplicit} (h : e ≠ -1#_ ∨ m = 0#_) :
    Unsigned (UnpackedFloat.unpack f (UnpackedFloat.packComponents f .positive e m)) := by
  have hsign : Sign.ofBitVec (Sign.positive.toBitVec) = .positive := rfl
  simp only [UnpackedFloat.unpack, UnpackedFloat.unpackExponent_packComponents,
    UnpackedFloat.unpackMantissa_packComponents, unpackSign_packComponents, hsign]
  split_ifs with hfull hzero
  · exact .infinity
  · exact absurd hfull (h.resolve_right hzero)
  · exact .zero
  · exact .finite _ _ _
  · exact .finite _ _ _

theorem Unsigned.unpack_pack (h : Unsigned u) :
    Unsigned (UnpackedFloat.unpack f (UnpackedFloat.pack f u)) := by
  have hsmall : ∀ k : Nat, k + 1 < 2 ^ f.exponentBits → BitVec.ofNat f.exponentBits k ≠ -1#_ := by
    intro k hk heq
    have hnat := congrArg BitVec.toNat heq
    rw [BitVec.toNat_ofNat, Nat.mod_eq_of_lt (by omega), BitVec.neg_one_eq_allOnes,
      BitVec.toNat_allOnes] at hnat
    omega
  cases h with
  | infinity => exact unsigned_unpack_packComponents (.inr rfl)
  | zero => exact unsigned_unpack_packComponents (.inr rfl)
  | finite m e hm =>
    simp only [UnpackedFloat.pack]
    split_ifs with hlarge hnormal
    · exact unsigned_unpack_packComponents (.inr rfl)
    · exact unsigned_unpack_packComponents (.inl (hsmall _ (by omega)))
    · exact unsigned_unpack_packComponents (.inl (hsmall 0 (Nat.one_lt_two_pow f.he.ne')))

theorem number_of_abs {a : Float32} (h : Scalar.abs a ≤ Scalar.abs a) :
    a.toModel.unpack ≠ .notANumber := by
  intro hnone
  obtain ⟨r, hr, _⟩ := (le_iff _ _).mp h
  have habs : (Scalar.abs a).toModel.unpack = UnpackedFloat.unpack .binary32
      (UnpackedFloat.pack .binary32 a.toModel.unpack.abs) := rfl
  rw [habs, hnone] at hr
  cases hr

instance : Scalar.Measured Float32 where
  length_number {x y} hx hy := by
    have hsquare : ∀ a : Float32, a.toModel.unpack ≠ .notANumber →
        Unsigned (a * a).toModel.unpack := fun a ha => (unsigned_mul_self ha).unpack_pack
    have hsum : Unsigned (x * x + y * y).toModel.unpack :=
      ((hsquare x (number_of_abs hx)).add (hsquare y (number_of_abs hy))).unpack_pack
    have hroot : Unsigned (Scalar.sqrt (x * x + y * y)).toModel.unpack := hsum.sqrt.unpack_pack
    obtain ⟨r, hr⟩ := hroot.rank_isSome
    exact (le_iff _ _).mpr ⟨r, hr, r, hr, le_refl r⟩

end SinglePrecision

end ShowerTrack
