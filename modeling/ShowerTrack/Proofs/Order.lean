import Mathlib.Data.Prod.Lex
import ShowerTrack.Proofs.Exact

/-!
# The order of scalars

Scalars that equal themselves are numbers, and those are in order; what is no number compares with
nothing. Positive numbers that tie are equal, and adding one to zero gives it back.
-/

set_option autoImplicit false

namespace ShowerTrack

/-- Where of two different items one always ranks before the other, one ranks before all others. -/
theorem exists_first {β : Type} {r : β → β → Prop} {items : List β} (hne : items ≠ [])
    (trans : ∀ a b c, r a b → r b c → r a c)
    (total : ∀ a ∈ items, ∀ b ∈ items, a ≠ b → r a b ∨ r b a) :
    ∃ m ∈ items, ∀ x ∈ items, x ≠ m → r m x := by
  induction items with
  | nil => exact absurd rfl hne
  | cons a items ih =>
    rcases eq_or_ne items [] with rfl | hitems
    · refine ⟨a, List.mem_cons_self, ?_⟩
      intro x hx hxa
      exact absurd (List.mem_singleton.mp hx) hxa
    · obtain ⟨m, hm, hfirst⟩ := ih hitems fun b hb c hc =>
        total b (List.mem_cons_of_mem a hb) c (List.mem_cons_of_mem a hc)
      have hmem := List.mem_cons_of_mem a hm
      by_cases ham : r a m
      · refine ⟨a, List.mem_cons_self, ?_⟩
        intro x hx hxa
        have hx := (List.mem_cons.mp hx).resolve_left hxa
        by_cases hxm : x = m
        · rwa [hxm]
        · exact trans a m x ham (hfirst x hx hxm)
      · refine ⟨m, hmem, ?_⟩
        intro x hx hxm
        rcases List.mem_cons.mp hx with rfl | hx
        · exact (total x List.mem_cons_self m hmem hxm).resolve_left ham
        · exact hfirst x hx hxm

/-- Scalars whose numbers are ordered, and where a first summand is not rounded. -/
class Scalar.Ordered (α : Type) [Scalar α] : Prop where
  le_self_left {a b : α} : a ≤ b → a ≤ a
  le_self_right {a b : α} : a ≤ b → b ≤ b
  le_trans {a b c : α} : a ≤ b → b ≤ c → a ≤ c
  le_total {a b : α} : a ≤ a → b ≤ b → a ≤ b ∨ b ≤ a
  lt_iff {a b : α} : a < b ↔ a ≤ b ∧ ¬ b ≤ a
  eq_of_tie {a b : α} : 0 < a → a ≤ b → b ≤ a → a = b
  zero_add {a : α} : 0 < a → 0 + a = a

namespace Scalar.Ordered

variable {α : Type} [Scalar α] [Scalar.Ordered α] {a b c : α}

theorem le_of_lt (h : a < b) : a ≤ b := (lt_iff.mp h).1

theorem not_le_of_lt (h : a < b) : ¬ b ≤ a := (lt_iff.mp h).2

theorem not_lt_of_le (h : a ≤ b) : ¬ b < a := fun hlt => not_le_of_lt hlt h

theorem lt_irrefl (a : α) : ¬ a < a := fun h => not_le_of_lt h (le_of_lt h)

theorem lt_asymm (h : a < b) : ¬ b < a := not_lt_of_le (le_of_lt h)

theorem lt_of_lt_of_le (h : a < b) (k : b ≤ c) : a < c :=
  lt_iff.mpr ⟨le_trans (le_of_lt h) k, fun hca => not_le_of_lt h (le_trans k hca)⟩

theorem lt_of_le_of_lt (h : a ≤ b) (k : b < c) : a < c :=
  lt_iff.mpr ⟨le_trans h (le_of_lt k), fun hca => not_le_of_lt k (le_trans hca h)⟩

theorem lt_trans (h : a < b) (k : b < c) : a < c := lt_of_lt_of_le h (le_of_lt k)

theorem number_of_lt (h : a < b) : b ≤ b := le_self_right (le_of_lt h)

theorem lt_of_not_le (ha : a ≤ a) (hb : b ≤ b) (h : ¬ b ≤ a) : a < b :=
  lt_iff.mpr ⟨(le_total ha hb).resolve_right h, h⟩

theorem le_of_not_lt (ha : a ≤ a) (hb : b ≤ b) (h : ¬ a < b) : b ≤ a := by
  by_contra hba
  exact h (lt_of_not_le ha hb hba)

/-- Different positive numbers do not tie. -/
theorem lt_or_lt_of_ne (ha : 0 < a) (hb : 0 < b) (hne : a ≠ b) : a < b ∨ b < a := by
  by_contra h
  rw [not_or] at h
  have hba := le_of_not_lt (number_of_lt ha) (number_of_lt hb) h.1
  have hab := le_of_not_lt (number_of_lt hb) (number_of_lt ha) h.2
  exact hne (eq_of_tie ha hab hba)

theorem same_eq_false (ha : 0 < a) (hne : a ≠ b) : Scalar.same b a = false := by
  rw [Scalar.same, Bool.and_eq_false_iff, decide_eq_false_iff_not, decide_eq_false_iff_not]
  by_contra h
  rw [not_or, not_not, not_not] at h
  exact hne (eq_of_tie ha h.2 h.1)

/-- Among different positive numbers one is the largest. -/
theorem exists_largest {β : Type} {items : List β} {f : β → α} (hne : items ≠ [])
    (hpos : ∀ x ∈ items, 0 < f x) (hf : ∀ x ∈ items, ∀ y ∈ items, f x = f y → x = y) :
    ∃ m ∈ items, ∀ x ∈ items, x ≠ m → f x < f m := by
  apply exists_first (r := fun m x => f x < f m) hne
  · exact fun a b c hab hbc => lt_trans hbc hab
  · intro a ha b hb hab
    exact (lt_or_lt_of_ne (hpos b hb) (hpos a ha) fun h => hab (hf b hb a ha h).symm)

end Scalar.Ordered

instance {α : Type} [Exact α] : Scalar.Ordered α where
  le_self_left _ := le_refl _
  le_self_right _ := le_refl _
  le_trans := le_trans
  le_total _ _ := le_total _ _
  lt_iff := lt_iff_le_not_ge
  eq_of_tie _ := le_antisymm
  zero_add _ := by rw [Exact.zero_eq, zero_add]

namespace SinglePrecision

open Float.Model (Format UnpackedFloat)
open Float.Model.UnpackedFloat (Sign)

/-- The place of a float among the numbers: by its class, then away from zero by exponent and
mantissa. -/
def rank : UnpackedFloat → Option (ℤ ×ₗ ℤ ×ₗ ℤ)
  | .notANumber => none
  | .infinity .negative => some (toLex (-2, toLex (0, 0)))
  | .infinity .positive => some (toLex (2, toLex (0, 0)))
  | .zero _ => some (toLex (0, toLex (0, 0)))
  | .finite .negative m e _ => some (toLex (-1, toLex (-e, -m)))
  | .finite .positive m e _ => some (toLex (1, toLex (e, m)))

theorem compare_natCast (m n : ℕ) : compare (m : ℤ) n = compare m n := by
  rcases lt_trichotomy m n with h | h | h
  · rw [Nat.compare_eq_lt.mpr h, Int.compare_eq_lt]
    omega
  · rw [Nat.compare_eq_eq.mpr h, Int.compare_eq_eq]
    omega
  · rw [Nat.compare_eq_gt.mpr h, Int.compare_eq_gt]
    omega

theorem compare_neg (a b : ℤ) : compare (-a) (-b) = (compare a b).swap := by
  rw [Int.compare_swap]
  rcases lt_trichotomy a b with h | h | h
  · rw [Int.compare_eq_gt.mpr h, Int.compare_eq_gt]
    omega
  · rw [Int.compare_eq_eq.mpr h.symm, Int.compare_eq_eq]
    omega
  · rw [Int.compare_eq_lt.mpr h, Int.compare_eq_lt]
    omega

/-- Floats compare as their ranks do. -/
theorem compare_rank (u v : UnpackedFloat) :
    u.compare v = (rank u).bind fun a => (rank v).map fun b => compare a b := by
  cases u with
  | notANumber => rfl
  | infinity s => cases s <;> cases v with
    | notANumber => rfl
    | infinity t => cases t <;> rfl
    | zero t => rfl
    | finite t => cases t <;> rfl
  | zero s => cases v with
    | notANumber => rfl
    | infinity t => cases t <;> rfl
    | zero t => rfl
    | finite t => cases t <;> rfl
  | finite s m e hm => cases v with
    | notANumber => cases s <;> rfl
    | infinity t => cases s <;> cases t <;> rfl
    | zero t => cases s <;> rfl
    | finite t n d hn => cases s with
      | negative => cases t with
        | negative =>
          simp [rank, UnpackedFloat.compare, Prod.Lex.compare_def, compareLex, compareOn,
            compare_neg, compare_natCast, Ordering.swap_then]
        | positive => rfl
      | positive => cases t with
        | negative => rfl
        | positive =>
          simp [rank, UnpackedFloat.compare, Prod.Lex.compare_def, compareLex, compareOn,
            compare_natCast]

theorem lt_iff_rank (u v : UnpackedFloat) :
    u.lt v = true ↔ ∃ a ∈ rank u, ∃ b ∈ rank v, a < b := by
  rw [UnpackedFloat.lt, compare_rank]
  cases rank u with
  | none => simp
  | some a => cases rank v <;> simp [compare_lt_iff_lt]

theorem le_iff_rank (u v : UnpackedFloat) :
    u.le v = true ↔ ∃ a ∈ rank u, ∃ b ∈ rank v, a ≤ b := by
  rw [UnpackedFloat.le, compare_rank]
  cases rank u with
  | none => simp
  | some a => cases rank v <;> simp [← compare_le_iff_le, Ordering.isLE_iff_ne_gt]

theorem positive_cases {u : UnpackedFloat} {a : ℤ ×ₗ ℤ ×ₗ ℤ} (hu : rank u = some a)
    (ha : toLex (0, toLex (0, 0)) < a) :
    (u = .infinity .positive ∧ a = toLex (2, toLex (0, 0))) ∨
      ∃ m e hm, u = .finite .positive m e hm ∧ a = toLex (1, toLex (e, (m : ℤ))) := by
  cases u with
  | notANumber => cases hu
  | infinity s => cases s with
    | negative =>
      obtain rfl := Option.some.inj hu
      exact absurd ha (by decide)
    | positive => exact .inl ⟨rfl, (Option.some.inj hu).symm⟩
  | zero s =>
    obtain rfl := Option.some.inj hu
    exact absurd ha (lt_irrefl _)
  | finite s m e hm => cases s with
    | negative =>
      obtain rfl := Option.some.inj hu
      rw [Prod.Lex.toLex_lt_toLex] at ha
      simp at ha
    | positive => exact .inr ⟨m, e, hm, rfl, (Option.some.inj hu).symm⟩

/-- A positive float is known by its rank. -/
theorem eq_of_rank_eq {u v : UnpackedFloat} {a : ℤ ×ₗ ℤ ×ₗ ℤ} (hu : rank u = some a)
    (hv : rank v = some a) (ha : toLex (0, toLex (0, 0)) < a) : u = v := by
  rcases positive_cases hu ha with ⟨rfl, rfl⟩ | ⟨m, e, hm, rfl, rfl⟩
  · rcases positive_cases hv ha with ⟨rfl, _⟩ | ⟨n, d, hn, rfl, h⟩
    · rfl
    · cases h
  · rcases positive_cases hv ha with ⟨rfl, h⟩ | ⟨n, d, hn, rfl, h⟩
    · cases h
    · simp only [toLex_inj, Prod.mk.injEq, true_and, Int.natCast_inj] at h
      obtain ⟨rfl, rfl⟩ := h
      rfl

theorem toBitVec_ofBitVec (b : BitVec 1) : (Sign.ofBitVec b).toBitVec = b := by
  rcases BitVec.eq_zero_or_eq_one b with rfl | rfl <;> rfl

/-- A word is its sign, exponent and mantissa put together. -/
theorem packComponents_unpack (b : BitVec Format.binary32.numBits) :
    UnpackedFloat.packComponents .binary32 (Sign.ofBitVec (UnpackedFloat.unpackSign b))
      (UnpackedFloat.unpackExponent b) (UnpackedFloat.unpackMantissa b) = b := by
  simp only [UnpackedFloat.packComponents, toBitVec_ofBitVec, UnpackedFloat.unpackSign,
    UnpackedFloat.unpackExponent, UnpackedFloat.unpackMantissa, BitVec.extractLsb]
  ext i hi
  grind

theorem toNat_implicit (n : BitVec 23) : (1#1 ++ n).toNat = 2 ^ 23 + n.toNat := by
  rw [BitVec.toNat_append, ← Nat.shiftLeft_add_eq_or_of_lt n.isLt]
  rfl

theorem pack_subnormal (s : Sign) (n : BitVec 23) (hn : 0 < n.toNat) :
    UnpackedFloat.pack .binary32 (.finite s n.toNat (-149) hn) =
      UnpackedFloat.packComponents .binary32 s 0#_ n := by
  have hlog : n.toNat.log2 < 23 := (Nat.log2_lt hn.ne').mpr n.isLt
  have hmantissa : Format.binary32.mantissaBits = 24 := rfl
  have hexponent : (-149 + (Format.binary32.exponentBias : ℤ) +
      (Format.binary32.mantissaBitsWithoutImplicit : ℤ)).toNat = 1 := rfl
  simp only [UnpackedFloat.pack, hexponent, hmantissa]
  rw [if_neg (by decide), if_neg (by omega), BitVec.ofNat_toNat, BitVec.setWidth_eq]

theorem pack_normal (s : Sign) (e : BitVec 8) (n : BitVec 23) (he : e.toNat < 255)
    (hn : 0 < (1#1 ++ n).toNat) :
    UnpackedFloat.pack .binary32 (.finite s (1#1 ++ n).toNat (e.toNat - 150) hn) =
      UnpackedFloat.packComponents .binary32 s e n := by
  have hlt : n.toNat < 2 ^ 23 := n.isLt
  have hlow : 23 ≤ (1#1 ++ n).toNat.log2 :=
    (Nat.le_log2 hn.ne').mpr (by rw [toNat_implicit]; omega)
  have hhigh : (1#1 ++ n).toNat.log2 < 24 :=
    (Nat.log2_lt hn.ne').mpr (by rw [toNat_implicit]; omega)
  have hmantissa : Format.binary32.mantissaBits = 24 := rfl
  have hbias : (Format.binary32.exponentBias : ℤ) = 127 := rfl
  have hbits : (Format.binary32.mantissaBitsWithoutImplicit : ℤ) = 23 := rfl
  have hexponent : ((e.toNat : ℤ) - 150 + (Format.binary32.exponentBias : ℤ) +
      (Format.binary32.mantissaBitsWithoutImplicit : ℤ)).toNat = e.toNat := by
    omega
  have hfits : BitVec.ofNat 23 (1#1 ++ n).toNat = n := by
    rw [← BitVec.toNat_inj, BitVec.toNat_ofNat, toNat_implicit]
    omega
  have hpow : 2 ^ Format.binary32.exponentBits = 256 := rfl
  simp only [UnpackedFloat.pack, hexponent, hmantissa]
  rw [if_neg (by omega), if_pos (by omega), hfits, BitVec.ofNat_toNat, BitVec.setWidth_eq]

/-- A float is put together from what it is taken apart into. -/
theorem pack_unpack {b : BitVec Format.binary32.numBits} (hb : Format.binary32.Valid b) :
    UnpackedFloat.pack .binary32 (UnpackedFloat.unpack .binary32 b) = b := by
  have hparts := packComponents_unpack b
  rw [UnpackedFloat.unpack]
  split_ifs with hinf hzero hsub hzero
  · rw [hinf, hzero] at hparts
    exact hparts
  · exact (hb.eq_packedNaN hinf hzero).symm
  · rw [hsub, hzero] at hparts
    exact hparts
  · rw [hsub] at hparts ⊢
    exact (pack_subnormal _ _ _).trans hparts
  · have he : (UnpackedFloat.unpackExponent b).toNat < 255 := by
      have hlt : (UnpackedFloat.unpackExponent b).toNat < 256 :=
        (UnpackedFloat.unpackExponent b).isLt
      have hne : (UnpackedFloat.unpackExponent b).toNat ≠ 255 := fun h =>
        hinf (BitVec.toNat_inj.mp h)
      omega
    exact (pack_normal _ _ _ he _).trans hparts

theorem ofModel_pack_unpack (a : Float32) :
    Float32.ofModel (Float32.Model.pack a.toModel.unpack) = a := by
  obtain ⟨bits, valid⟩ := a
  have hbits : UnpackedFloat.pack .binary32 (UnpackedFloat.unpack .binary32 bits.toBitVec) =
      bits.toBitVec := pack_unpack valid
  simp only [Float32.Model.pack, Float32.Model.unpack, hbits]

theorem le_iff (a b : Float32) : a ≤ b ↔
    ∃ r ∈ rank a.toModel.unpack, ∃ s ∈ rank b.toModel.unpack, r ≤ s := by
  rw [← le_iff_rank]
  exact decide_eq_true_iff

theorem lt_iff (a b : Float32) : a < b ↔
    ∃ r ∈ rank a.toModel.unpack, ∃ s ∈ rank b.toModel.unpack, r < s := by
  rw [← lt_iff_rank]
  exact decide_eq_true_iff

instance : Scalar.Ordered Float32 where
  le_self_left h := by
    obtain ⟨r, hr, _⟩ := (le_iff _ _).mp h
    exact (le_iff _ _).mpr ⟨r, hr, r, hr, le_refl r⟩
  le_self_right h := by
    obtain ⟨_, _, s, hs, _⟩ := (le_iff _ _).mp h
    exact (le_iff _ _).mpr ⟨s, hs, s, hs, le_refl s⟩
  le_trans h k := by
    obtain ⟨r, hr, s, hs, hrs⟩ := (le_iff _ _).mp h
    obtain ⟨s', hs', t, ht, hst⟩ := (le_iff _ _).mp k
    obtain rfl := Option.mem_unique hs hs'
    exact (le_iff _ _).mpr ⟨r, hr, t, ht, hrs.trans hst⟩
  le_total h k := by
    obtain ⟨r, hr, _⟩ := (le_iff _ _).mp h
    obtain ⟨s, hs, _⟩ := (le_iff _ _).mp k
    rcases le_total r s with hrs | hsr
    · exact .inl ((le_iff _ _).mpr ⟨r, hr, s, hs, hrs⟩)
    · exact .inr ((le_iff _ _).mpr ⟨s, hs, r, hr, hsr⟩)
  lt_iff {a b} := by
    constructor
    · intro h
      obtain ⟨r, hr, s, hs, hrs⟩ := (lt_iff _ _).mp h
      refine ⟨(le_iff _ _).mpr ⟨r, hr, s, hs, hrs.le⟩, ?_⟩
      intro hba
      obtain ⟨s', hs', r', hr', hsr⟩ := (le_iff _ _).mp hba
      obtain rfl := Option.mem_unique hs hs'
      obtain rfl := Option.mem_unique hr hr'
      exact absurd hrs hsr.not_gt
    · rintro ⟨hab, hba⟩
      obtain ⟨r, hr, s, hs, hrs⟩ := (le_iff _ _).mp hab
      refine (lt_iff _ _).mpr ⟨r, hr, s, hs, lt_of_not_ge fun hsr => hba ?_⟩
      exact (le_iff _ _).mpr ⟨s, hs, r, hr, hsr⟩
  eq_of_tie {a b} h hab hba := by
    obtain ⟨z, hz, r, hr, hzr⟩ := (lt_iff _ _).mp h
    obtain ⟨r', hr', s, hs, hrs⟩ := (le_iff _ _).mp hab
    obtain ⟨s', hs', r'', hr'', hsr⟩ := (le_iff _ _).mp hba
    obtain rfl := Option.mem_unique hr hr'
    obtain rfl := Option.mem_unique hr hr''
    obtain rfl := Option.mem_unique hs hs'
    obtain rfl := hrs.antisymm hsr
    obtain rfl : z = toLex (0, toLex (0, 0)) := (Option.some.inj hz).symm
    have heq := eq_of_rank_eq hr hs hzr
    rw [← ofModel_pack_unpack a, heq, ofModel_pack_unpack]
  zero_add {a} h := by
    obtain ⟨z, hz, r, hr, hzr⟩ := (lt_iff _ _).mp h
    obtain rfl : z = toLex (0, toLex (0, 0)) := (Option.some.inj hz).symm
    have hadd : UnpackedFloat.add .binary32 (.zero .positive) a.toModel.unpack =
        a.toModel.unpack := by
      rcases positive_cases hr hzr with ⟨hinf, _⟩ | ⟨m, e, hm, hfin, _⟩
      · rw [hinf]
        rfl
      · rw [hfin]
        rfl
    have hsum : (0 : Float32) + a = Float32.ofModel (Float32.Model.pack
        (UnpackedFloat.add .binary32 (.zero .positive) a.toModel.unpack)) := rfl
    rw [hsum, hadd, ofModel_pack_unpack]

end SinglePrecision

end ShowerTrack
