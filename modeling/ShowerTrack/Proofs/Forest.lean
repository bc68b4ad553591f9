import Mathlib.Data.List.Induction
import Mathlib.Order.Nat
import Mathlib.Tactic.SplitIfs
import ShowerTrack.Partition
import ShowerTrack.Proofs.Components

/-!
# Disjoint sets

Every index of a partition points downward, so that a redirected pointer moves one class and
nothing else. Joining pairs one after the other gives the classes that the pairs generate, and
the groups are these classes.
-/

set_option autoImplicit false

namespace ShowerTrack.Partition

def Descends (p : Partition) : Prop := ∀ i, p.next i ≤ i

theorem descends_discrete (n : Nat) : (discrete n).Descends := by
  intro i
  by_cases hi : i < n <;> simp [discrete, next, Array.getD, hi]

theorem root_step {p : Partition} {i : Nat} (h : p.next i < i) :
    p.root i = p.root (p.next i) := by
  rw [root, if_pos h]

theorem root_stop {p : Partition} {i : Nat} (h : ¬ p.next i < i) : p.root i = i := by
  rw [root, if_neg h]

theorem root_discrete (n i : Nat) : (discrete n).root i = i := by
  apply root_stop
  by_cases hi : i < n <;> simp [discrete, next, Array.getD, hi]

theorem root_le (p : Partition) (i : Nat) : p.root i ≤ i := by
  induction i using Nat.strongRecOn with
  | ind i ih =>
    by_cases h : p.next i < i
    · rw [root_step h]
      exact (ih _ h).trans h.le
    · exact (root_stop h).le

theorem root_root (p : Partition) (i : Nat) : p.root (p.root i) = p.root i := by
  induction i using Nat.strongRecOn with
  | ind i ih =>
    by_cases h : p.next i < i
    · rw [root_step h]
      exact ih _ h
    · rw [root_stop h, root_stop h]

theorem root_next {p : Partition} (hp : p.Descends) (i : Nat) :
    p.root (p.next i) = p.root i := by
  by_cases h : p.next i < i
  · exact (root_step h).symm
  · rw [show p.next i = i from le_antisymm (hp i) (Nat.le_of_not_lt h)]

def redirect (p : Partition) (i r : Nat) : Partition := ⟨p.parent.setIfInBounds i r⟩

theorem size_redirect (p : Partition) (i r : Nat) : (p.redirect i r).size = p.size := by
  simp [redirect, size]

theorem next_redirect {p : Partition} {i : Nat} (hi : i < p.size) (r j : Nat) :
    (p.redirect i r).next j = if j = i then r else p.next j := by
  have hi' : i < p.parent.size := hi
  by_cases h : j = i
  · subst h
    simp [redirect, next, hi']
  · simp [redirect, next, h, Ne.symm h]

theorem descends_redirect {p : Partition} (hp : p.Descends) {i r : Nat} (hi : i < p.size)
    (hr : r ≤ i) : (p.redirect i r).Descends := by
  intro j
  rw [next_redirect hi]
  split_ifs with h
  · exact h ▸ hr
  · exact hp j

/-- An index that is a root, or that is pointed at its own root, takes its class along. -/
theorem root_redirect {p : Partition} {i r : Nat} (hi : i < p.size)
    (hr : r ≤ i) (hroot : p.root r = r) (h : p.root i = r ∨ p.root i = i) (j : Nat) :
    (p.redirect i r).root j = if p.root j = p.root i then r else p.root j := by
  induction j using Nat.strongRecOn with
  | ind j ih =>
    by_cases hj : j = i
    · subst hj
      rw [if_pos rfl]
      by_cases hlt : r < j
      · rw [root_step (by rw [next_redirect hi, if_pos rfl]; exact hlt), next_redirect hi,
          if_pos rfl, ih r hlt, hroot]
        exact ite_self r
      · rw [root_stop (by rw [next_redirect hi, if_pos rfl]; exact hlt)]
        omega
    · have hnext : (p.redirect i r).next j = p.next j := by rw [next_redirect hi, if_neg hj]
      by_cases hlt : p.next j < j
      · rw [root_step (by rw [hnext]; exact hlt), hnext, ih _ hlt, ← root_step hlt]
      · rw [root_stop (by rw [hnext]; exact hlt), root_stop hlt]
        split_ifs with heq
        · rcases h with h | h <;> omega
        · rfl

structure SameRoots (p q : Partition) : Prop where
  descends : q.Descends
  size : q.size = p.size
  root : ∀ i, q.root i = p.root i

theorem SameRoots.root_redirect {p q : Partition} (h : SameRoots p q) {r s : Nat}
    (hs : s < q.size) (hrs : r ≤ s) (hr : p.root r = r) (hroot : p.root s = s) (i : Nat) :
    (q.redirect s r).root i = if p.root i = s then r else p.root i := by
  have hqs : q.root s = s := (h.root s).trans hroot
  rw [Partition.root_redirect hs hrs ((h.root r).trans hr) (.inr hqs), hqs, h.root]

theorem compress_sameRoots {p : Partition} (hp : p.Descends) (i : Nat) :
    SameRoots p (p.compress i (p.root i)) := by
  generalize hr : p.root i = r
  induction i using Nat.strongRecOn generalizing p with
  | ind i ih =>
    rw [compress]
    by_cases h : p.next i < i
    · rw [if_pos h]
      have hi : i < p.size := by
        by_contra hi
        have hi' : ¬ i < p.parent.size := hi
        simp [next, hi'] at h
      have hle : r ≤ i := hr ▸ p.root_le i
      have hq : ∀ j, (p.redirect i r).root j = p.root j := by
        intro j
        rw [root_redirect hi hle (hr ▸ p.root_root i) (.inl hr)]
        split_ifs with hj
        · rw [hj, hr]
        · rfl
      have hqr : (p.redirect i r).root (p.next i) = r := by rw [hq, root_next hp, hr]
      have hc := ih (p.next i) h (descends_redirect hp hi hle) hqr
      exact ⟨hc.descends, hc.size.trans (size_redirect p i r), fun j => (hc.root j).trans (hq j)⟩
    · rw [if_neg h]
      exact ⟨hp, rfl, fun _ => rfl⟩

theorem size_compress (p : Partition) (i r : Nat) : (p.compress i r).size = p.size := by
  induction i using Nat.strongRecOn generalizing p with
  | ind i ih =>
    rw [compress]
    split
    · rename_i h
      exact (ih (p.next i) h _).trans (size_redirect p i r)
    · rfl

theorem size_union (p : Partition) (a b : Nat) : (p.union a b).size = p.size := by
  have hfind : ((p.find a).2.find b).2.size = p.size :=
    (size_compress _ _ _).trans (size_compress _ _ _)
  simp only [union]
  split_ifs
  · exact hfind
  · exact (size_redirect _ _ _).trans hfind
  · exact (size_redirect _ _ _).trans hfind

theorem size_unionAll (p : Partition) (pairs : List (Nat × Nat)) :
    (p.unionAll pairs).size = p.size := by
  induction pairs generalizing p with
  | nil => rfl
  | cons pair pairs ih => exact (ih (p.union pair.1 pair.2)).trans (p.size_union pair.1 pair.2)

theorem find_fst (p : Partition) (i : Nat) : (p.find i).1 = p.root i := rfl

theorem find_sameRoots {p : Partition} (hp : p.Descends) (i : Nat) :
    SameRoots p (p.find i).2 :=
  compress_sameRoots hp i

/-- What one union does: the two classes become one, under the smaller of their roots. -/
structure Unites (p : Partition) (a b : Nat) (q : Partition) : Prop where
  descends : q.Descends
  size : q.size = p.size
  root : ∀ i, q.root i =
    if p.root i = p.root a ∨ p.root i = p.root b then min (p.root a) (p.root b) else p.root i

theorem union_unites {p : Partition} (hp : p.Descends) {a b : Nat} (ha : a < p.size)
    (hb : b < p.size) : Unites p a b (p.union a b) := by
  obtain ⟨hd₁, hs₁, hr₁⟩ := find_sameRoots hp a
  obtain ⟨hd₂, hs₂, hr₂⟩ := find_sameRoots hd₁ b
  have hs := hs₂.trans hs₁
  have hsame : SameRoots p ((p.find a).2.find b).2 := ⟨hd₂, hs, fun i => (hr₂ i).trans (hr₁ i)⟩
  have hla := p.root_le a
  have hlb := p.root_le b
  simp only [union, find_fst, hr₁ b]
  split_ifs with heq hlt
  · refine ⟨hd₂, hs, fun i => ?_⟩
    rw [hsame.root, heq, min_self]
    split_ifs with hi
    · exact hi.elim id id
    · rfl
  · have hb' : p.root b < ((p.find a).2.find b).2.size := by omega
    refine ⟨descends_redirect hd₂ hb' hlt.le, (size_redirect _ _ _).trans hs, fun i => ?_⟩
    have hroot := hsame.root_redirect hb' hlt.le (p.root_root a) (p.root_root b) i
    rw [redirect] at hroot
    rw [hroot, min_eq_left hlt.le]
    split_ifs <;> simp_all
  · have hle : p.root b ≤ p.root a := by omega
    have ha' : p.root a < ((p.find a).2.find b).2.size := by omega
    refine ⟨descends_redirect hd₂ ha' hle, (size_redirect _ _ _).trans hs, fun i => ?_⟩
    have hroot := hsame.root_redirect ha' hle (p.root_root b) (p.root_root a) i
    rw [redirect] at hroot
    rw [hroot, min_eq_right hle]
    split_ifs <;> simp_all

theorem Unites.root_eq_iff {p q : Partition} {a b : Nat} (h : Unites p a b q) (i j : Nat) :
    q.root i = q.root j ↔ p.root i = p.root j ∨
      (p.root i = p.root a ∨ p.root i = p.root b) ∧
        (p.root j = p.root a ∨ p.root j = p.root b) := by
  rw [h.root i, h.root j]
  split_ifs <;> omega

def Paired (pairs : List (Nat × Nat)) (i j : Nat) : Prop := (i, j) ∈ pairs

structure Generated (n : Nat) (pairs : List (Nat × Nat)) (p : Partition) : Prop where
  descends : p.Descends
  size : p.size = n
  root : ∀ i < n, ∀ j < n,
    p.root i = p.root j ↔ Joined (Paired pairs) (List.range n) i j

theorem generated_discrete (n : Nat) : Generated n [] (discrete n) where
  descends := descends_discrete n
  size := by simp [discrete, size]
  root i _ j _ := by
    rw [root_discrete, root_discrete]
    constructor
    · intro h
      exact h ▸ Joined.refl i
    · intro h
      apply h.mem_of_closed (p := (i = ·)) _ rfl
      intro a b _ link
      rcases link.2.2 with h | h <;> exact absurd h List.not_mem_nil

theorem Generated.union {n : Nat} {pairs : List (Nat × Nat)} {p : Partition}
    (h : Generated n pairs p) {a b : Nat} (ha : a < n) (hb : b < n) :
    Generated n (pairs ++ [(a, b)]) (p.union a b) := by
  have hu := union_unites h.descends (h.size ▸ ha) (h.size ▸ hb)
  have wider : ∀ i j, Joined (Paired pairs) (List.range n) i j →
      Joined (Paired (pairs ++ [(a, b)])) (List.range n) i j := by
    intro i j hij
    apply hij.mono
    intro c d link
    exact Linked.joined ⟨link.1, link.2.1, link.2.2.imp (List.mem_append_left _)
      (List.mem_append_left _)⟩
  have new : Joined (Paired (pairs ++ [(a, b)])) (List.range n) a b :=
    Linked.joined ⟨List.mem_range.mpr ha, List.mem_range.mpr hb, .inl (by simp [Paired])⟩
  refine ⟨hu.descends, hu.size.trans h.size, fun i hi j hj => ?_⟩
  constructor
  · intro hroot
    have joined : ∀ c < n, ∀ d < n, p.root c = p.root d →
        Joined (Paired (pairs ++ [(a, b)])) (List.range n) c d := by
      intro c hc d hd hcd
      exact wider c d ((h.root c hc d hd).mp hcd)
    rcases (hu.root_eq_iff i j).mp hroot with hij | ⟨hia | hib, hja | hjb⟩
    · exact joined i hi j hj hij
    · exact joined i hi j hj (hia.trans hja.symm)
    · exact ((joined i hi a ha hia).trans new).trans (joined j hj b hb hjb).symm
    · exact ((joined i hi b hb hib).trans new.symm).trans (joined j hj a ha hja).symm
    · exact joined i hi j hj (hib.trans hjb.symm)
  · intro hij
    have same : ∀ c d, Linked (Paired (pairs ++ [(a, b)])) (List.range n) c d →
        (p.union a b).root c = (p.union a b).root d := by
      intro c d link
      rw [hu.root_eq_iff]
      obtain ⟨hc, hd, hcd⟩ := link
      by_cases hold : Linked (Paired pairs) (List.range n) c d
      · exact .inl ((h.root c (List.mem_range.mp hc) d (List.mem_range.mp hd)).mpr hold.joined)
      · have hnew : (c = a ∧ d = b) ∨ (d = a ∧ c = b) := by
          simp only [Linked, hc, hd, true_and, Paired, List.mem_append, List.mem_singleton,
            Prod.mk.injEq] at hcd hold
          tauto
        rcases hnew with ⟨rfl, rfl⟩ | ⟨rfl, rfl⟩ <;> simp
    apply hij.mem_of_closed (p := fun k => (p.union a b).root i = (p.union a b).root k) _ rfl
    intro c d hc link
    exact hc.trans (same c d link)

theorem generated_unionAll {n : Nat} {pairs : List (Nat × Nat)}
    (h : ∀ p ∈ pairs, p.1 < n ∧ p.2 < n) :
    Generated n pairs ((discrete n).unionAll pairs) := by
  induction pairs using List.reverseRecOn with
  | nil => exact generated_discrete n
  | append_singleton pairs p ih =>
    rw [unionAll_append]
    obtain ⟨ha, hb⟩ := h p (by simp)
    exact (ih fun q hq => h q (by simp [hq])).union ha hb

theorem mem_members {p : Partition} {r i : Nat} :
    i ∈ p.members r ↔ i < p.size ∧ p.root i = r := by
  simp [members]

theorem mem_groups {p : Partition} {g : List Nat} (hg : g ∈ p.groups) :
    g ≠ [] ∧ ∃ r, g = p.members r := by
  rw [groups_eq, List.mem_filter, List.mem_map] at hg
  obtain ⟨⟨r, _, rfl⟩, hne⟩ := hg
  exact ⟨by simpa using hne, r, rfl⟩

theorem flatten_groups_perm (p : Partition) : p.groups.flatten.Perm (List.range p.size) := by
  rw [groups_eq, List.flatten_filter_not_isEmpty]
  apply flatMap_filter_perm List.nodup_range
  intro i hi
  have hle := p.root_le i
  rw [List.mem_range] at hi ⊢
  omega

/-- Groups that list their indices in ascending order, and come in the order of the first ones. -/
structure Ascending (groups : List (List Nat)) : Prop where
  members : ∀ g ∈ groups, g.Pairwise (· < ·)
  firsts : groups.Pairwise fun g h => ∀ a ∈ g.head?, ∀ b ∈ h.head?, a < b

theorem members_sorted (p : Partition) (r : Nat) : (p.members r).Pairwise (· < ·) :=
  List.pairwise_lt_range.filter _

/-- The first member of a class is its root. -/
theorem eq_of_mem_head?_members {p : Partition} {r a : Nat} (h : a ∈ (p.members r).head?) :
    a = r := by
  have ha := mem_members.mp (List.mem_of_mem_head? h)
  have hra : r ≤ a := ha.2 ▸ p.root_le a
  have hr : r ∈ p.members r :=
    mem_members.mpr ⟨hra.trans_lt ha.1, ha.2 ▸ p.root_root a⟩
  have hsorted := members_sorted p r
  obtain ⟨rest, hmembers⟩ := List.head?_eq_some_iff.mp h
  rw [hmembers] at hr hsorted
  rcases List.mem_cons.mp hr with heq | hrest
  · exact heq.symm
  · exact absurd ((List.pairwise_cons.mp hsorted).1 r hrest) (Nat.not_lt.mpr hra)

theorem groups_ascending (p : Partition) : Ascending p.groups where
  members g hg := by
    obtain ⟨_, r, rfl⟩ := mem_groups hg
    exact members_sorted p r
  firsts := by
    rw [groups_eq]
    apply List.Pairwise.filter
    rw [List.pairwise_map]
    apply List.pairwise_lt_range.imp
    intro r s hrs a ha b hb
    rw [eq_of_mem_head?_members ha, eq_of_mem_head?_members hb]
    exact hrs

/-- The groups are the components of the pairs that were joined. -/
theorem Generated.groups {n : Nat} {pairs : List (Nat × Nat)} {p : Partition}
    (h : Generated n pairs p) : IsComponents (Paired pairs) (List.range n) p.groups := by
  apply IsComponents.of_closed
  · rw [← h.size]
    exact flatten_groups_perm p
  · intro hmem
    exact (mem_groups hmem).1 rfl
  · intro g hg a ha b hb
    obtain ⟨_, r, rfl⟩ := mem_groups hg
    rw [mem_members, h.size] at ha hb
    exact (h.root a ha.1 b hb.1).mp (ha.2.trans hb.2.symm)
  · intro g hg a ha b link
    obtain ⟨_, r, rfl⟩ := mem_groups hg
    rw [mem_members] at ha ⊢
    have hb := List.mem_range.mp link.2.1
    have hroot := (h.root a (h.size ▸ ha.1) b hb).mpr link.joined
    exact ⟨h.size ▸ hb, hroot ▸ ha.2⟩

end ShowerTrack.Partition
