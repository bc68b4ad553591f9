import ShowerTrack.Proofs.Keyed
import ShowerTrack.Proofs.Shares

/-!
# Carried energy

Clusters are read as pieces of energy that carry the key of the item they were cut from. What
the pieces of an item carry together is its energy, but for the shares that were cut off in
clusters of other peaks.
-/

set_option autoImplicit false

namespace ShowerTrack

variable {α ι κ : Type} [Exact α] [DecidableEq κ]

def carried (q : κ) (pieces : List (κ × α)) : α :=
  ((pieces.filter fun p => p.1 = q).map Prod.snd).sum

theorem carried_append (q : κ) (xs ys : List (κ × α)) :
    carried q (xs ++ ys) = carried q xs + carried q ys := by
  rw [carried, List.filter_append, List.map_append, List.sum_append]
  rfl

theorem carried_flatMap {β : Type} (q : κ) (blocks : List β) (f : β → List (κ × α)) :
    carried q (blocks.flatMap f) = (blocks.map fun b => carried q (f b)).sum := by
  induction blocks with
  | nil => rfl
  | cons b blocks ih => rw [List.flatMap_cons, carried_append, ih, List.map_cons, List.sum_cons]

theorem carried_of_perm {q : κ} {xs ys : List (κ × α)} (h : xs.Perm ys) :
    carried q xs = carried q ys :=
  ((h.filter _).map _).sum_eq

theorem carried_of_forall_ne {q : κ} {pieces : List (κ × α)} (h : ∀ p ∈ pieces, p.1 ≠ q) :
    carried q pieces = 0 := by
  have hnil : (pieces.filter fun p => p.1 = q) = [] := by
    apply List.filter_eq_nil_iff.mpr
    intro p hp
    simp [h p hp]
  rw [carried, hnil]
  rfl

/-- Of items with different keys, one is cut into the piece with its key or into none. -/
theorem carried_map_filter {items : List ι} {key : ι → κ} (hn : (items.map key).Nodup)
    (keep : ι → Bool) (energy : ι → α) {i : ι} (hi : i ∈ items) :
    carried (key i) ((items.filter keep).map fun j => (key j, energy j)) =
      if keep i then energy i else 0 := by
  obtain ⟨front, back, rfl, hfront, hback⟩ := exists_split_at_key hn hi
  have hzero : ∀ others : List ι, (∀ j ∈ others, key j ≠ key i) →
      carried (key i) ((others.filter keep).map fun j => (key j, energy j)) = 0 := by
    intro others hothers
    apply carried_of_forall_ne
    intro p hp
    obtain ⟨j, hj, rfl⟩ := List.mem_map.mp hp
    exact hothers j (List.mem_of_mem_filter hj)
  rw [List.filter_append, List.map_append, carried_append, hzero front hfront, zero_add]
  by_cases hkeep : keep i = true
  · have hsplit : ((i :: back).filter keep).map (fun j => (key j, energy j)) =
        [(key i, energy i)] ++ (back.filter keep).map fun j => (key j, energy j) := by
      rw [List.filter_cons_of_pos hkeep]
      rfl
    rw [hsplit, carried_append, hzero back hback, add_zero, if_pos hkeep]
    simp [carried]
  · rw [List.filter_cons_of_neg hkeep, hzero back hback, if_neg hkeep]

/-- Where no two blocks share a key, what an item carries comes from its own block. -/
theorem carried_flatMap_of_mem {β : Type} {blocks : List β} {members : β → List ι} {key : ι → κ}
    (hn : ((blocks.flatMap members).map key).Nodup) {f : β → List (κ × α)}
    (hf : ∀ b ∈ blocks, ∀ p ∈ f b, p.1 ∈ (members b).map key) {b : β} (hb : b ∈ blocks) {i : ι}
    (hi : i ∈ members b) : carried (key i) (blocks.flatMap f) = carried (key i) (f b) := by
  obtain ⟨front, back, rfl⟩ := List.append_of_mem hb
  rw [List.flatMap_append, List.flatMap_cons, List.map_append, List.map_append,
    List.nodup_append, List.nodup_append] at hn
  have hne : ∀ others : List β, (∀ c ∈ others, c ∈ front ++ b :: back) →
      (∀ j ∈ others.flatMap members, key j ≠ key i) →
        carried (key i) (others.flatMap f) = 0 := by
    intro others hothers hkeys
    apply carried_of_forall_ne
    intro p hp
    obtain ⟨c, hc, hpc⟩ := List.mem_flatMap.mp hp
    obtain ⟨j, hj, hkey⟩ := List.mem_map.mp (hf c (hothers c hc) p hpc)
    rw [← hkey]
    exact hkeys j (List.mem_flatMap.mpr ⟨c, hc, hj⟩)
  have hfront := hne front (fun c hc => List.mem_append_left _ hc) fun j hj =>
    hn.2.2 (key j) (List.mem_map_of_mem hj) (key i)
      (List.mem_append_left _ (List.mem_map_of_mem hi))
  have hback := hne back
    (fun c hc => List.mem_append_right _ (List.mem_cons_of_mem b hc)) fun j hj =>
    (hn.2.1.2.2 (key i) (List.mem_map_of_mem hi) (key j) (List.mem_map_of_mem hj)).symm
  rw [List.flatMap_append, List.flatMap_cons, carried_append, carried_append, hfront, hback,
    zero_add, add_zero]

namespace Sharing

/-- The pieces that peak number `k` gets: those of its own item, and all that are large enough. -/
def pieces (g : Sharing α ι) (key : ι → κ) (passes : Nat) (least : α) (peak : ι) (k : Nat) :
    List (κ × α) :=
  (g.items.filter fun i => key i = key peak ∨ least ≤ g.share passes i k).map fun i =>
    (key i, g.energy i * g.share passes i k)

/-- The shares of an item that are too small, in the clusters of the peaks it is not. -/
def lost (g : Sharing α ι) (key : ι → κ) (passes : Nat) (least : α) (i : ι) : α :=
  ((g.peaks.zipIdx.filter fun p => key i ≠ key p.1 ∧ g.share passes i p.2 < least).map
    fun p => g.share passes i p.2).sum

theorem lost_nonneg {g : Sharing α ι} (h : g.Sound) (key : ι → κ) (passes : Nat) (least : α)
    (i : ι) : 0 ≤ g.lost key passes least i := by
  apply List.sum_nonneg
  intro share hshare
  obtain ⟨p, _, rfl⟩ := List.mem_map.mp hshare
  exact share_nonneg h passes i p.2

theorem lost_of_least_nonpos {g : Sharing α ι} (h : g.Sound) (key : ι → κ) (passes : Nat)
    {least : α} (hleast : least ≤ 0) (i : ι) : g.lost key passes least i = 0 := by
  have hnil : (g.peaks.zipIdx.filter fun p =>
      key i ≠ key p.1 ∧ g.share passes i p.2 < least) = [] := by
    apply List.filter_eq_nil_iff.mpr
    intro p _ hp
    have hless := (of_decide_eq_true hp).2
    exact absurd (share_nonneg h passes i p.2) (not_le.mpr (hless.trans_le hleast))
  rw [lost, hnil]
  rfl

theorem sum_carried_pieces {g : Sharing α ι} (h : g.Sound) {key : ι → κ}
    (hn : (g.items.map key).Nodup) (passes : Nat) (least : α) {i : ι} (hi : i ∈ g.items) :
    (g.peaks.zipIdx.map fun p => carried (key i) (g.pieces key passes least p.1 p.2)).sum =
      g.energy i * (1 - g.lost key passes least i) := by
  have hterm : ∀ p : ι × Nat, carried (key i) (g.pieces key passes least p.1 p.2) =
      if key i ≠ key p.1 ∧ g.share passes i p.2 < least then 0
      else g.energy i * g.share passes i p.2 := by
    intro p
    rw [pieces, carried_map_filter hn _ _ hi]
    by_cases hcut : key i ≠ key p.1 ∧ g.share passes i p.2 < least
    · rw [if_pos hcut, if_neg]
      simp only [decide_eq_true_eq, not_or, not_le]
      exact hcut
    · rw [if_neg hcut, if_pos]
      rw [decide_eq_true_eq, or_iff_not_imp_left]
      intro hkey
      exact not_lt.mp fun hless => hcut ⟨hkey, hless⟩
  simp only [hterm]
  rw [List.sum_map_ite, List.sum_map_mul_left]
  have hwhole := List.sum_map_filter_add_sum_map_filter_not
    (fun p : ι × Nat => key i ≠ key p.1 ∧ g.share passes i p.2 < least)
    (fun p => g.share passes i p.2) g.peaks.zipIdx
  rw [sum_share h] at hwhole
  have hkept := eq_sub_of_add_eq' hwhole
  rw [hkept]
  simp [lost]

end Sharing

end ShowerTrack
