import ShowerTrack.Proofs.Keyed
import ShowerTrack.Records.Pedestals

/-!
# Tables of strips

Strips are in order by detector, plane and number, and different strips are different in it. A
table has one entry for a strip and lists its entries in this order; whoever comes by them in
another order gets the same list when he sorts them.
-/

set_option autoImplicit false

namespace ShowerTrack

namespace StripKey

theorem compare_eq : (compare : StripKey → StripKey → Ordering) =
    compareLex (compareOn fun key => key.detector.index)
      (compareLex (compareOn fun key => key.plane.index) (compareOn fun key => key.strip)) := rfl

instance : Std.TransOrd StripKey :=
  inferInstanceAs (Std.TransCmp (compareLex (compareOn fun key : StripKey => key.detector.index)
    (compareLex (compareOn fun key => key.plane.index) (compareOn fun key => key.strip))))

theorem index_detector_inj {a b : Detector} (h : a.index = b.index) : a = b := by
  cases a <;> cases b <;> first | rfl | cases h

theorem index_plane_inj {a b : Plane} (h : a.index = b.index) : a = b := by
  cases a <;> cases b <;> first | rfl | cases h

instance : Std.LawfulEqOrd StripKey where
  eq_of_compare {a b} h := by
    rw [compare_eq, compareLex_eq_eq, compareLex_eq_eq] at h
    obtain ⟨hdetector, hplane, hstrip⟩ := h
    have hd := index_detector_inj (Std.LawfulEqCmp.eq_of_compare hdetector)
    have hp := index_plane_inj (Std.LawfulEqCmp.eq_of_compare hplane)
    have hs : a.strip = b.strip := Std.LawfulEqCmp.eq_of_compare hstrip
    cases a
    cases b
    rw [StripKey.mk.injEq]
    exact ⟨hd, hp, hs⟩

end StripKey

theorem nodup_keys {β : Type} (table : Std.TreeMap StripKey β) :
    (table.toList.map (·.1)).Nodup := by
  rw [List.nodup_iff_pairwise_ne, List.pairwise_map]
  apply Std.TreeMap.ordered_keys_toList.imp
  intro a b hab heq
  have hself : compare a.1 a.1 = .eq := Std.ReflCmp.compare_self
  rw [← heq, hself] at hab
  cases hab

def byKey {β : Type} (a b : StripKey × β) : Bool := (compare a.1 b.1).isLE

theorem toList_eq_mergeSort {β : Type} {table : Std.TreeMap StripKey β}
    {visit : List (StripKey × β)} (h : visit.Perm table.toList) :
    table.toList = visit.mergeSort byKey := by
  have hsorted : table.toList.Pairwise fun a b => byKey a b = true := by
    apply Std.TreeMap.ordered_keys_toList.imp
    intro a b hab
    rw [byKey, hab]
    rfl
  rw [← List.mergeSort_of_pairwise hsorted]
  apply mergeSort_eq_of_perm _ _ _ h.symm
  · intro a b c hab hbc
    exact Std.TransCmp.isLE_trans hab hbc
  · intro a b
    have hswap : compare b.1 a.1 = (compare a.1 b.1).swap := Std.OrientedCmp.eq_swap
    rw [byKey, byKey, hswap]
    cases compare a.1 b.1 with
    | lt => rfl
    | eq => rfl
    | gt => rfl
  · intro a ha b hb hab hba
    exact List.inj_on_of_nodup_map (nodup_keys table) ha hb
      (Std.LawfulEqCmp.eq_of_compare (Std.OrientedCmp.isLE_antisymm hab hba))

/-- A pedestal file lists its strips in ascending order, whatever order they are come by in. -/
theorem PedestalTable.rows_of_visit {table : PedestalTable Float32}
    {visit : List (StripKey × Pedestal Float32)} (h : visit.Perm table.toList) :
    table.rows = ((visit.mergeSort byKey).map fun (key, pedestal) => ⟨key, pedestal⟩) ∧
      table.rows.Pairwise fun a b => compare a.key b.key = .lt := by
  constructor
  · rw [rows, toList_eq_mergeSort h]
  · rw [rows, List.pairwise_map]
    exact Std.TreeMap.ordered_keys_toList

end ShowerTrack
