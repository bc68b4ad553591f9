import ShowerTrack.Proofs.Lengths

/-!
# Words

All floats are in order by their words, those that are no number too, and the two zeros apart. Among
the floats without a sign this order is that of their values, since a word without a sign counts up
with its exponent first and its mantissa next. A distance has no sign.
-/

set_option autoImplicit false

namespace ShowerTrack.SinglePrecision

open Float.Model (Format UnpackedFloat)
open Float.Model.UnpackedFloat (Sign)

/-- The place of a float in the total order of all floats, by its word: those with a sign come
first, and the further from zero the earlier. -/
def totalPlace (a : Float32) : ℤ :=
  let word := a.toBits.toNat
  if word < 2 ^ 31 then word else 2 ^ 31 - 1 - (word : ℤ)

/-- The place among the numbers of a float without a sign, by the exponent and the mantissa of its
word. -/
def worth (e m : ℕ) : ℤ ×ₗ ℤ ×ₗ ℤ :=
  if e = 255 then toLex (2, toLex (0, 0))
  else if e = 0 then (if m = 0 then toLex (0, toLex (0, 0)) else toLex (1, toLex (-149, (m : ℤ))))
  else toLex (1, toLex ((e : ℤ) - 150, 2 ^ 23 + (m : ℤ)))

theorem worth_le_iff {e d m n : ℕ} (he : e ≤ 255) (hd : d ≤ 255) (hm : m < 2 ^ 23) (hn : n < 2 ^ 23)
    (hem : e = 255 → m = 0) (hdn : d = 255 → n = 0) :
    worth e m ≤ worth d n ↔ e * 2 ^ 23 + m ≤ d * 2 ^ 23 + n := by
  unfold worth
  split_ifs <;> simp [Prod.Lex.toLex_le_toLex] <;> omega

section Unpacking

variable {b : BitVec Format.binary32.numBits}

theorem positive_of_unsigned (h : Unsigned (UnpackedFloat.unpack .binary32 b)) :
    Sign.ofBitVec (UnpackedFloat.unpackSign b) = .positive := by
  simp only [UnpackedFloat.unpack] at h
  generalize Sign.ofBitVec (UnpackedFloat.unpackSign b) = s at h ⊢
  split_ifs at h <;> cases h <;> rfl

theorem toNat_packComponents (e : BitVec 8) (m : BitVec 23) :
    (UnpackedFloat.packComponents .binary32 .positive e m).toNat = e.toNat * 2 ^ 23 + m.toNat := by
  have happend : UnpackedFloat.packComponents .binary32 .positive e m = (0#1 ++ e) ++ m := rfl
  rw [happend, BitVec.toNat_append, ← Nat.shiftLeft_add_eq_or_of_lt m.isLt, BitVec.toNat_append,
    Nat.shiftLeft_eq]
  simp

/-- A full exponent leaves no mantissa, or the word would be no number. -/
theorem rank_unpack (h : Unsigned (UnpackedFloat.unpack .binary32 b)) {e : BitVec 8}
    {m : BitVec 23} (he : UnpackedFloat.unpackExponent b = e)
    (hm : UnpackedFloat.unpackMantissa b = m) :
    (e.toNat = 255 → m.toNat = 0) ∧
      rank (UnpackedFloat.unpack .binary32 b) = some (worth e.toNat m.toNat) := by
  have hpositive := positive_of_unsigned h
  have hbias : (Format.binary32.exponentBias : ℤ) = 127 := rfl
  simp only [UnpackedFloat.unpack, hpositive, he, hm] at h ⊢
  by_cases hfull : e = -1#8
  · have hnil : m = 0#23 := by
      by_contra hsome
      rw [if_pos hfull, if_neg hsome] at h
      cases h
    rw [if_pos hfull, if_pos hnil, hfull, hnil]
    exact ⟨fun _ => rfl, rfl⟩
  · have hless : e.toNat ≠ 255 := fun heq => hfull (BitVec.toNat_inj.mp heq)
    rw [if_neg hfull, worth, if_neg hless]
    refine ⟨fun heq => absurd heq hless, ?_⟩
    by_cases hsub : e = 0#8
    · rw [if_pos hsub, hsub, BitVec.toNat_zero, if_pos rfl]
      by_cases hnil : m = 0#23
      · rw [dif_pos hnil, hnil, BitVec.toNat_zero, if_pos rfl]
        rfl
      · have hsome : m.toNat ≠ 0 := fun heq => hnil (BitVec.toNat_inj.mp heq)
        rw [dif_neg hnil, if_neg hsome]
        rfl
    · have hsome : e.toNat ≠ 0 := fun heq => hsub (BitVec.toNat_inj.mp heq)
      rw [if_neg hsub, if_neg hsome, rank, toNat_implicit, hbias]
      simp only [Nat.cast_add, Nat.cast_pow, Nat.cast_ofNat]
      congr 3

end Unpacking

theorem Unsigned.exists_worth {a : Float32} (h : Unsigned a.toModel.unpack) : ∃ e m : ℕ,
    e ≤ 255 ∧ m < 2 ^ 23 ∧ (e = 255 → m = 0) ∧ a.toBits.toNat = e * 2 ^ 23 + m ∧
      rank a.toModel.unpack = some (worth e m) := by
  obtain ⟨⟨bits, valid⟩⟩ := a
  obtain ⟨e, he⟩ : ∃ e, @UnpackedFloat.unpackExponent .binary32 bits.toBitVec = e := ⟨_, rfl⟩
  obtain ⟨m, hm⟩ : ∃ m, @UnpackedFloat.unpackMantissa .binary32 bits.toBitVec = m := ⟨_, rfl⟩
  obtain ⟨hfull, hrank⟩ := rank_unpack h he hm
  have hword := packComponents_unpack bits.toBitVec
  rw [positive_of_unsigned h, he, hm] at hword
  have hvalue := congrArg BitVec.toNat hword
  rw [toNat_packComponents] at hvalue
  exact ⟨e.toNat, m.toNat, Nat.le_of_lt_succ e.isLt, m.isLt, hfull, hvalue.symm, hrank⟩

theorem totalPlace_of_word {a : Float32} {w : ℕ} (h : a.toBits.toNat = w) (hw : w < 2 ^ 31) :
    totalPlace a = w := by
  simp only [totalPlace, h, if_pos hw]

/-- Floats without a sign are in total order just as they are in value. -/
theorem totalPlace_le_iff {a b : Float32} (ha : Unsigned a.toModel.unpack)
    (hb : Unsigned b.toModel.unpack) : totalPlace a ≤ totalPlace b ↔ a ≤ b := by
  obtain ⟨e, m, he, hm, hem, hword, hrank⟩ := ha.exists_worth
  obtain ⟨d, n, hd, hn, hdn, hword', hrank'⟩ := hb.exists_worth
  rw [totalPlace_of_word hword (by omega), totalPlace_of_word hword' (by omega), Int.ofNat_le,
    ← worth_le_iff he hd hm hn hem hdn, le_iff, hrank, hrank']
  simp

theorem unsigned_abs {a : Float32} (h : Scalar.abs a ≤ Scalar.abs a) :
    Unsigned (Scalar.abs a).toModel.unpack := by
  have hnumber := number_of_abs h
  have hsign : Unsigned a.toModel.unpack.abs := by
    cases hcase : a.toModel.unpack with
    | notANumber => exact absurd hcase hnumber
    | infinity s => exact .infinity
    | zero s => exact .zero
    | finite s m e hm => exact .finite _ _ _
  exact hsign.unpack_pack

theorem unsigned_hypot {x y : Float32} (h : Elementary.hypot x y ≤ Elementary.hypot x y) :
    Unsigned (Elementary.hypot x y).toModel.unpack := by
  have hcases : Elementary.hypot x y = if x.isInf || y.isInf then 1 / 0 else
      Scalar.abs (x.toFloat * x.toFloat + y.toFloat * y.toFloat).sqrt.toFloat32 := rfl
  rw [hcases] at h ⊢
  split_ifs at h ⊢
  · exact .infinity
  · exact unsigned_abs h

end ShowerTrack.SinglePrecision
