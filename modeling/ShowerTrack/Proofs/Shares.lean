import Mathlib
import ShowerTrack.Calorimeter.Sharing
import ShowerTrack.Proofs.Exact

/-!
# Shares

In exact arithmetic every pass of sharing cuts an item into shares that are not negative and
make up the whole. The passes keep the energies of the centers from being negative, and with
them the weights that the next shares are proportional to.
-/

set_option autoImplicit false

namespace ShowerTrack

variable {α ι : Type} [Exact α]

structure IsWhole (n : Nat) (row : Array α) : Prop where
  size : row.size = n
  nonneg : ∀ share ∈ row, 0 ≤ share
  sum : row.toList.sum = 1

theorem IsWhole.sum_getD {n : Nat} {row : Array α} (h : IsWhole n row) :
    ((List.range n).map (row.getD · 0)).sum = 1 := by
  have hlist : (List.range n).map (row.getD · 0) = row.toList := by
    apply List.ext_getElem
    · simp [h.size]
    · intro k _ hk
      simp [Array.getD_eq_getD_getElem?, Array.getElem?_eq_getElem (Array.length_toList ▸ hk)]
  rw [hlist, h.sum]

theorem isWhole_of_weights {weights : List α} (hw : ∀ w ∈ weights, 0 ≤ w)
    (hpos : 0 < weights.sum) :
    IsWhole weights.length (weights.map (· / weights.sum)).toArray where
  size := by simp
  nonneg share hshare := by
    obtain ⟨w, hmem, rfl⟩ := List.mem_map.mp (List.mem_toArray.mp hshare)
    exact div_nonneg (hw w hmem) hpos.le
  sum := by
    simp only [div_eq_mul_inv]
    rw [List.sum_map_mul_right, List.map_id']
    exact mul_inv_cancel₀ hpos.ne'

theorem isWhole_of_unit {n k : Nat} (hk : k < n) :
    IsWhole n ((Array.range n).map fun j => if j = k then (1 : α) else 0) where
  size := by simp
  nonneg share hshare := by
    obtain ⟨j, _, rfl⟩ := Array.mem_map.mp hshare
    by_cases hj : j = k
    · rw [if_pos hj]
      exact zero_le_one
    · rw [if_neg hj]
  sum := by
    rw [Array.toList_map, Array.toList_range, List.sum_map_ite_eq,
      List.count_eq_one_of_mem List.nodup_range (List.mem_range.mpr hk)]
    simp

namespace Sharing

structure Sound (g : Sharing α ι) : Prop where
  items : ∀ i ∈ g.items, 0 ≤ g.energy i
  peaks : ∀ p ∈ g.peaks, 0 ≤ g.energy p
  fraction : ∀ i x y, 0 ≤ g.fraction i x y
  nearest : ∀ i, g.nearest i < g.peaks.length

structure Centered (g : Sharing α ι) (centers : List (Center α)) : Prop where
  length : centers.length = g.peaks.length
  energy : ∀ c ∈ centers, 0 ≤ c.energy

theorem centered_start {g : Sharing α ι} (h : g.Sound) : g.Centered g.start where
  length := List.length_map _
  energy c hc := by
    obtain ⟨p, hp, rfl⟩ := List.mem_map.mp hc
    exact h.peaks p hp

/-- The shares of an item are a whole, also where no profile reaches it. -/
theorem isWhole_row {g : Sharing α ι} (h : g.Sound) {centers : List (Center α)}
    (hc : g.Centered centers) (i : ι) : IsWhole g.peaks.length (g.row centers i) := by
  have hweights : ∀ w ∈ centers.map fun c => c.energy * g.fraction i c.x c.y, 0 ≤ w := by
    intro w hw
    obtain ⟨c, hmem, rfl⟩ := List.mem_map.mp hw
    exact mul_nonneg (hc.energy c hmem) (h.fraction i c.x c.y)
  simp only [row, Exact.sum_eq, Exact.zero_eq, Exact.one_eq]
  split
  · rename_i hpos
    have hwhole := isWhole_of_weights hweights hpos
    rw [List.length_map, hc.length] at hwhole
    exact hwhole
  · exact isWhole_of_unit (h.nearest i)

theorem total_foldl_nonneg {g : Sharing α ι} (peak : ι) (k : Nat) {rows : List (ι × Array α)}
    (hrows : ∀ r ∈ rows, 0 ≤ g.energy r.1 * r.2.getD k 0) {m : Moment α} (hm : 0 ≤ m.total) :
    0 ≤ (rows.foldl (Moment.add g peak k) m).total := by
  induction rows generalizing m with
  | nil => exact hm
  | cons r rows ih =>
    rw [List.foldl_cons]
    apply ih fun r' hr' => hrows r' (List.mem_cons_of_mem r hr')
    have hadd : (Moment.add g peak k m r).total = m.total + g.energy r.1 * r.2.getD k 0 := by
      simp only [Moment.add, Exact.zero_eq]
      split
      · rfl
      · rfl
    rw [hadd]
    exact add_nonneg hm (hrows r List.mem_cons_self)

theorem centered_recenterAll {g : Sharing α ι} (h : g.Sound) {centers : List (Center α)}
    (hc : g.Centered centers) : g.Centered (g.recenterAll (g.rows centers) centers) where
  length := by
    rw [recenterAll, List.length_map, List.length_zipIdx, List.length_zip, hc.length, Nat.min_self]
  energy c hmem := by
    obtain ⟨⟨⟨peak, c₀⟩, k⟩, _, rfl⟩ := List.mem_map.mp hmem
    have hrows : ∀ r ∈ g.rows centers, 0 ≤ g.energy r.1 * r.2.getD k 0 := by
      intro r hr
      obtain ⟨i, hi, rfl⟩ := List.mem_map.mp hr
      exact mul_nonneg (h.items i hi) (Exact.getD_nonneg (isWhole_row h hc i).nonneg k)
    simp only [recenter]
    split
    · exact total_foldl_nonneg peak k hrows (by simp)
    · exact total_foldl_nonneg peak k hrows (by simp)

def centersAfter (g : Sharing α ι) : Nat → List (Center α) → List (Center α)
  | 0, centers => centers
  | n + 1, centers => g.centersAfter n (g.recenterAll (g.rows centers) centers)

theorem centered_centersAfter {g : Sharing α ι} (h : g.Sound) (n : Nat)
    {centers : List (Center α)} (hc : g.Centered centers) :
    g.Centered (g.centersAfter n centers) := by
  induction n generalizing centers with
  | zero => exact hc
  | succ n ih => exact ih (centered_recenterAll h hc)

def lastRow (g : Sharing α ι) (passes : Nat) (i : ι) : Array α :=
  g.row (g.centersAfter (passes - 1) g.start) i

def share (g : Sharing α ι) (passes : Nat) (i : ι) (k : Nat) : α := (g.lastRow passes i).getD k 0

theorem rowsAfter_eq (g : Sharing α ι) (n : Nat) (centers : List (Center α)) :
    g.rowsAfter n centers = g.rows (g.centersAfter n centers) := by
  induction n generalizing centers with
  | zero => rfl
  | succ n ih => exact ih _

theorem shares_eq (g : Sharing α ι) (passes : Nat) :
    g.shares passes = g.items.map fun i => (i, g.lastRow passes i) :=
  g.rowsAfter_eq (passes - 1) g.start

/-- After every pass the shares of every item are a whole. -/
theorem isWhole_lastRow {g : Sharing α ι} (h : g.Sound) (passes : Nat) (i : ι) :
    IsWhole g.peaks.length (g.lastRow passes i) :=
  isWhole_row h (centered_centersAfter h _ (centered_start h)) i

theorem share_nonneg {g : Sharing α ι} (h : g.Sound) (passes : Nat) (i : ι) (k : Nat) :
    0 ≤ g.share passes i k :=
  Exact.getD_nonneg (isWhole_lastRow h passes i).nonneg k

theorem sum_share {g : Sharing α ι} (h : g.Sound) (passes : Nat) (i : ι) :
    (g.peaks.zipIdx.map fun p => g.share passes i p.2).sum = 1 := by
  have hsum := (isWhole_lastRow h passes i).sum_getD
  rw [List.range_eq_range', ← List.zipIdx_map_snd 0 g.peaks, List.map_map] at hsum
  exact hsum

end Sharing

end ShowerTrack
