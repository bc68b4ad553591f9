import Mathlib.Data.List.Nodup
import Mathlib.Data.List.Perm.Basic

/-!
# Keyed lists

Items with different keys can be told apart by them: around an item of the list all others have
other keys, to leave out its position is to leave out its key, and there is one way to sort them.
-/

set_option autoImplicit false

namespace ShowerTrack

variable {ι κ : Type} {items : List ι} {key : ι → κ}

theorem exists_split_at_key (hn : (items.map key).Nodup) {a : ι} (ha : a ∈ items) :
    ∃ front back, items = front ++ a :: back ∧ (∀ j ∈ front, key j ≠ key a) ∧
      ∀ j ∈ back, key j ≠ key a := by
  obtain ⟨front, back, rfl⟩ := List.append_of_mem ha
  rw [List.map_append, List.map_cons, List.nodup_append, List.nodup_cons] at hn
  refine ⟨front, back, rfl, ?_, ?_⟩
  · intro j hj
    exact hn.2.2 (key j) (List.mem_map_of_mem hj) (key a) List.mem_cons_self
  · intro j hj hkey
    exact hn.2.1.1 (hkey ▸ List.mem_map_of_mem hj)

theorem filter_key_eq [BEq κ] [LawfulBEq κ] (hn : (items.map key).Nodup) {a : ι}
    (ha : a ∈ items) : items.filter (key · == key a) = [a] := by
  obtain ⟨front, back, rfl, hfront, hback⟩ := exists_split_at_key hn ha
  have hnone : ∀ others : List ι, (∀ j ∈ others, key j ≠ key a) →
      others.filter (key · == key a) = [] := by
    intro others hothers
    rw [List.filter_eq_nil_iff]
    intro j hj
    simpa using hothers j hj
  rw [List.filter_append, List.filter_cons_of_pos (by simp), hnone front hfront,
    hnone back hback, List.nil_append]

theorem position_eq_iff (hn : (items.map key).Nodup) {m n : Nat} {a b : ι}
    (hb : items[m]? = some b) (ha : items[n]? = some a) : m = n ↔ key b = key a := by
  constructor
  · rintro rfl
    rw [Option.some.inj (hb.symm.trans ha)]
  · intro hkey
    have hbound : m < (items.map key).length := by
      rw [List.length_map]
      exact (List.getElem?_eq_some_iff.mp hb).1
    apply (List.getElem?_inj hbound hn).mp
    rw [List.getElem?_map, List.getElem?_map, hb, ha, Option.map_some, Option.map_some, hkey]

section Key

variable [LE κ] [DecidableLE κ] [Std.IsLinearOrder κ] (key : ι → κ)

theorem key_le_trans (a b c : ι) (hab : decide (key a ≤ key b) = true)
    (hbc : decide (key b ≤ key c) = true) : decide (key a ≤ key c) = true :=
  decide_eq_true (Std.le_trans (of_decide_eq_true hab) (of_decide_eq_true hbc))

theorem key_le_total (a b : ι) : (decide (key a ≤ key b) || decide (key b ≤ key a)) = true := by
  rw [Bool.or_eq_true, decide_eq_true_eq, decide_eq_true_eq]
  exact Std.le_total

theorem pairwise_mergeSort_key (items : List ι) :
    (items.mergeSort fun a b => key a ≤ key b).Pairwise fun a b => key a ≤ key b := by
  apply (List.pairwise_mergeSort (key_le_trans key) (key_le_total key) items).imp
  intro a b hab
  exact of_decide_eq_true hab

end Key

/-- Sorting forgets in which order items came when no two of them tie. -/
theorem mergeSort_eq_of_perm {le : ι → ι → Bool} {others : List ι}
    (trans : ∀ a b c, le a b = true → le b c = true → le a c = true)
    (total : ∀ a b, (le a b || le b a) = true)
    (antisymm : ∀ a ∈ items, ∀ b ∈ items, le a b = true → le b a = true → a = b)
    (h : items.Perm others) : items.mergeSort le = others.mergeSort le := by
  have hperm : (items.mergeSort le).Perm (others.mergeSort le) :=
    (List.mergeSort_perm items le).trans (h.trans (List.mergeSort_perm others le).symm)
  apply List.Perm.eq_of_pairwise _ (List.pairwise_mergeSort trans total items)
    (List.pairwise_mergeSort trans total others) hperm
  intro a b ha hb
  exact antisymm a (List.mem_mergeSort.mp ha) b (h.mem_iff.mpr (List.mem_mergeSort.mp hb))

/-- Items with different keys are sorted by them in one way. -/
theorem mergeSort_key_of_perm [LE κ] [DecidableLE κ] [Std.IsLinearOrder κ] (key : ι → κ)
    {others : List ι} (hn : (items.map key).Nodup) (h : items.Perm others) :
    (items.mergeSort fun a b => key a ≤ key b) = others.mergeSort fun a b => key a ≤ key b := by
  apply mergeSort_eq_of_perm (key_le_trans key) (key_le_total key) _ h
  intro a ha b hb hab hba
  exact List.inj_on_of_nodup_map hn ha hb
    (Std.le_antisymm (of_decide_eq_true hab) (of_decide_eq_true hba))

theorem eq_of_perm_of_alike {others : List ι} (h : items.Perm others)
    (alike : ∀ a ∈ items, ∀ b ∈ items, a = b) : items = others := by
  have hall : ∀ l : List ι, l.Pairwise fun _ _ => True := fun _ =>
    List.pairwise_iff_forall_sublist.mpr fun _ => trivial
  apply List.Perm.eq_of_pairwise _ (hall items) (hall others) h
  intro a b ha hb _ _
  exact alike a ha b (h.mem_iff.mpr hb)

/-- Leaving out a position of a list leaves out what has its key. -/
theorem map_fst_filter_zipIdx [DecidableEq κ] (hn : (items.map key).Nodup) {n : Nat} {a : ι}
    (ha : items[n]? = some a) (keep : ι → Bool) :
    (items.zipIdx.filter fun x => x.2 != n && keep x.1).map Prod.fst =
      items.filter fun i => key i ≠ key a && keep i := by
  have hposition : ∀ x ∈ items.zipIdx, (x.2 != n && keep x.1) =
      (decide (key x.1 ≠ key a) && keep x.1) := by
    intro x hx
    have hiff := position_eq_iff hn (List.mem_zipIdx_iff_getElem?.mp hx) ha
    by_cases hxn : x.2 = n
    · simp [hxn, hiff.mp hxn]
    · simp [hxn, mt hiff.mpr hxn]
  rw [List.filter_congr hposition]
  have hmap := List.filter_map (f := Prod.fst) (p := fun i => decide (key i ≠ key a) && keep i)
    (l := items.zipIdx)
  rw [List.zipIdx_map_fst] at hmap
  exact hmap.symm

/-- Keeping what has a certain key beside all that is large enough adds one item. -/
theorem filter_or_perm [DecidableEq κ] (hn : (items.map key).Nodup) {a : ι} (ha : a ∈ items)
    (keep : ι → Bool) :
    (items.filter fun i => key i = key a ∨ keep i = true).Perm
      (a :: items.filter fun i => key i ≠ key a && keep i) := by
  obtain ⟨front, back, rfl, hfront, hback⟩ := exists_split_at_key hn ha
  have hsame : ∀ others : List ι, (∀ j ∈ others, key j ≠ key a) →
      (others.filter fun i => key i = key a ∨ keep i = true) =
        others.filter fun i => key i ≠ key a && keep i := by
    intro others hothers
    apply List.filter_congr
    intro j hj
    simp [hothers j hj]
  rw [List.filter_append, List.filter_append, List.filter_cons_of_pos (by simp),
    List.filter_cons_of_neg (by simp), hsame front hfront, hsame back hback]
  exact List.perm_middle

end ShowerTrack
