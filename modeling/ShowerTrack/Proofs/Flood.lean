import Mathlib.Data.List.Nodup
import Mathlib.Data.List.Perm.Basic
import Mathlib.Data.List.ProdSigma
import ShowerTrack.Calorimeter.Grid

/-!
# Flooding

A flood moves cells from the dry ones to the flooded ones and neither loses nor copies any. The
islands of a grid therefore hold every dry cell once.
-/

set_option autoImplicit false

namespace ShowerTrack
namespace Grid

def copies (s : List Cell × Std.HashSet Cell) (c : Cell) : Nat :=
  s.1.count c + if c ∈ s.2 then 1 else 0

theorem copies_cons (a : Cell) (s : List Cell × Std.HashSet Cell) (c : Cell) :
    copies (a :: s.1, s.2) c = (if a = c then 1 else 0) + copies s c := by
  simp only [copies, List.count_cons, beq_iff_eq]
  omega

theorem copies_erase {s : List Cell × Std.HashSet Cell} {a : Cell} (ha : a ∈ s.2) (c : Cell) :
    copies (a :: s.1, s.2.erase a) c = copies s c := by
  by_cases hac : a = c
  · subst hac
    simp [copies, Std.HashSet.mem_erase, ha]
  · simp [copies, Std.HashSet.mem_erase, List.count_cons_of_ne hac, hac]

theorem copies_wet (s : List Cell × Std.HashSet Cell) (a c : Cell) :
    copies (wet s a) c = copies s c := by
  unfold wet
  split
  · rename_i ha
    exact copies_erase ha c
  · rfl

theorem copies_foldl_wet (cells : List Cell) (s : List Cell × Std.HashSet Cell) (c : Cell) :
    copies (cells.foldl wet s) c = copies s c := by
  induction cells generalizing s with
  | nil => rfl
  | cons a cells ih => rw [List.foldl_cons, ih, copies_wet]

theorem copies_flood (ways : Cell → List Cell) (edge : List Cell) (dry : Std.HashSet Cell)
    (c : Cell) : copies (flood ways edge dry) c = copies (edge, dry) c := by
  induction edge, dry using flood.induct ways with
  | case1 dry => rw [flood]
  | case2 a edge dry next _ _ _ ih =>
    rw [flood]
    have hflood := copies_cons a (flood ways next.1 next.2) c
    have hnext : copies (next.1, next.2) c = copies (edge, dry) c :=
      copies_foldl_wet (ways a) (edge, dry) c
    have hedge := copies_cons a (edge, dry) c
    rw [ih, hnext] at hflood
    exact hflood.trans hedge.symm

/-- The islands share out the dry cells. -/
theorem count_flatten_islandsFrom (ways : Cell → List Cell) {cells : List Cell}
    {dry : Std.HashSet Cell} (hdry : ∀ a ∈ dry, a ∈ cells) (c : Cell) :
    (islandsFrom ways cells dry).flatten.count c = if c ∈ dry then 1 else 0 := by
  induction cells generalizing dry with
  | nil =>
    have hc : c ∉ dry := fun h => List.not_mem_nil (hdry c h)
    simp [islandsFrom, hc]
  | cons a cells ih =>
    rw [islandsFrom]
    by_cases ha : a ∈ dry
    · have hsplit : ∀ b, copies (flood ways [a] (dry.erase a)) b = if b ∈ dry then 1 else 0 := by
        intro b
        rw [copies_flood, copies_erase (s := ([], dry)) ha]
        simp [copies]
      have hrest : ∀ b ∈ (flood ways [a] (dry.erase a)).2, b ∈ cells := by
        intro b hb
        have hcopies := hsplit b
        rw [copies, if_pos hb] at hcopies
        have hbdry : b ∈ dry := by
          by_contra hno
          rw [if_neg hno] at hcopies
          omega
        have hba : b ≠ a := by
          rintro rfl
          have hmem : b ∈ (flood ways [b] (dry.erase b)).1 := by
            rw [flood]
            exact List.mem_cons_self
          have hpos := List.count_pos_iff.mpr hmem
          rw [if_pos hbdry] at hcopies
          omega
        exact (List.mem_cons.mp (hdry b hbdry)).resolve_left hba
      rw [if_pos ha, List.flatten_cons, List.count_append, ih hrest, ← hsplit c, copies]
      rw [(List.mergeSort_perm _ _).count_eq]
    · rw [if_neg ha]
      apply ih
      intro b hb
      exact (List.mem_cons.mp (hdry b hb)).resolve_left fun h => ha (h ▸ hb)

theorem nodup_cellsOf (rows columns : Nat) : (cellsOf rows columns).Nodup :=
  List.Nodup.product List.nodup_range List.nodup_range

variable {α : Type} [Scalar α]

theorem flatten_islands_perm (g : Grid α) (s : GridSettings α) :
    (g.islands s).flatten.Perm (g.cells.filter (g.isDry s)) := by
  rw [List.perm_iff_count]
  intro c
  have hdry : ∀ a, a ∈ Std.HashSet.ofList (g.cells.filter (g.isDry s)) ↔
      a ∈ g.cells.filter (g.isDry s) := by
    intro a
    rw [Std.HashSet.mem_ofList, List.contains_iff_mem]
  rw [islands, count_flatten_islandsFrom _ fun a ha => (hdry a).mp ha]
  have hnodup : (g.cells.filter (g.isDry s)).Nodup := (nodup_cellsOf _ _).filter _
  by_cases hc : c ∈ g.cells.filter (g.isDry s)
  · rw [if_pos ((hdry c).mpr hc), List.count_eq_one_of_mem hnodup hc]
  · rw [if_neg fun h => hc ((hdry c).mp h), List.count_eq_zero_of_not_mem hc]

theorem nodup_flatten_islands (g : Grid α) (s : GridSettings α) : (g.islands s).flatten.Nodup :=
  (g.flatten_islands_perm s).nodup_iff.mpr ((nodup_cellsOf _ _).filter _)

end Grid

end ShowerTrack
