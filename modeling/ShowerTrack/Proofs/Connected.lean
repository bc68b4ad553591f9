import ShowerTrack.Proofs.Forest

/-!
# Connected lists

The search for related pairs stops at the first entry out of reach. When the list is sorted so
that nothing related lies behind such an entry, the search finds all related pairs, and the
lists it connects are the components of the relation.
-/

set_option autoImplicit false

namespace ShowerTrack

variable {β : Type}

def InOrder (related : β → β → Bool) (items : List β) (a b : β) : Prop :=
  [a, b].Sublist items ∧ related a b = true

theorem filterMap_getElem?_range (items : List β) :
    (List.range items.length).filterMap (items[·]?) = items := by
  induction items using List.reverseRecOn with
  | nil => rfl
  | append_singleton items a ih =>
    rw [List.length_append, List.length_singleton, List.range_succ, List.filterMap_append]
    have hfront : (List.range items.length).filterMap ((items ++ [a])[·]?) =
        (List.range items.length).filterMap (items[·]?) := by
      apply List.filterMap_congr
      intro i hi
      exact List.getElem?_append_left (List.mem_range.mp hi)
    rw [hfront, ih]
    simp

section Positions

variable {items : List β} {r : β → β → Prop} {R : Nat → Nat → Prop}

theorem mem_range_of_getElem? {i : Nat} {a : β} (h : items[i]? = some a) :
    i ∈ List.range items.length :=
  List.mem_range.mpr (List.getElem?_eq_some_iff.mp h).1

theorem exists_getElem?_of_mem_range {i : Nat} (h : i ∈ List.range items.length) :
    ∃ a, items[i]? = some a :=
  ⟨_, List.getElem?_eq_getElem (List.mem_range.mp h)⟩

theorem position_unique (hn : items.Nodup) {i j : Nat} {a : β} (hi : items[i]? = some a)
    (hj : items[j]? = some a) : i = j :=
  (List.getElem?_inj (List.getElem?_eq_some_iff.mp hi).1 hn).mp (hi.trans hj.symm)

theorem Joined.entries
    (found : ∀ i j a b, R i j → items[i]? = some a → items[j]? = some b → r a b) {i j : Nat}
    (path : Joined R (List.range items.length) i j) {a b : β} (ha : items[i]? = some a)
    (hb : items[j]? = some b) : Joined r items a b := by
  induction path generalizing b with
  | refl =>
    obtain rfl : a = b := Option.some.inj (ha.symm.trans hb)
    exact .refl a
  | tail _ link ih =>
    obtain ⟨c, hc⟩ := exists_getElem?_of_mem_range link.1
    have hcb : Linked r items c b :=
      ⟨List.mem_of_getElem? hc, List.mem_of_getElem? hb,
        link.2.2.imp (found _ _ c b · hc hb) (found _ _ b c · hb hc)⟩
    exact (ih hc).trans hcb.joined

theorem Linked.positions (hn : items.Nodup)
    (all : ∀ a b, r a b → ∃ i j, items[i]? = some a ∧ items[j]? = some b ∧ R i j) {a b : β}
    (link : Linked r items a b) {i : Nat} (ha : items[i]? = some a) :
    ∃ j, items[j]? = some b ∧ Linked R (List.range items.length) i j := by
  rcases link.2.2 with hab | hba
  · obtain ⟨i', j, ha', hb, hR⟩ := all a b hab
    obtain rfl := position_unique hn ha ha'
    exact ⟨j, hb, mem_range_of_getElem? ha, mem_range_of_getElem? hb, .inl hR⟩
  · obtain ⟨j, i', hb, ha', hR⟩ := all b a hba
    obtain rfl := position_unique hn ha ha'
    exact ⟨j, hb, mem_range_of_getElem? ha, mem_range_of_getElem? hb, .inr hR⟩

theorem IsComponents.of_positions (hn : items.Nodup) {parts : List (List Nat)}
    (h : IsComponents R (List.range items.length) parts)
    (found : ∀ i j a b, R i j → items[i]? = some a → items[j]? = some b → r a b)
    (all : ∀ a b, r a b → ∃ i j, items[i]? = some a ∧ items[j]? = some b ∧ R i j) :
    IsComponents r items (parts.map fun part => part.filterMap (items[·]?)) := by
  apply of_closed
  · have hflat : (parts.map fun part => part.filterMap (items[·]?)).flatten =
        parts.flatten.filterMap (items[·]?) := List.filterMap_flatten.symm
    rw [hflat]
    exact (h.perm.filterMap _).trans (.of_eq (filterMap_getElem?_range items))
  · intro hmem
    obtain ⟨part, hpart, hnil⟩ := List.mem_map.mp hmem
    obtain ⟨i, hi⟩ := List.exists_mem_of_ne_nil part fun he => h.inhabited (he ▸ hpart)
    obtain ⟨a, ha⟩ := exists_getElem?_of_mem_range (h.mem_items hpart hi)
    have hmem : a ∈ part.filterMap (items[·]?) := List.mem_filterMap.mpr ⟨i, hi, ha⟩
    rw [hnil] at hmem
    exact List.not_mem_nil hmem
  · intro g hg a ha b hb
    obtain ⟨part, hpart, rfl⟩ := List.mem_map.mp hg
    obtain ⟨i, hi, hia⟩ := List.mem_filterMap.mp ha
    obtain ⟨j, hj, hjb⟩ := List.mem_filterMap.mp hb
    exact (h.joined hpart hi hj).entries found hia hjb
  · intro g hg a ha b link
    obtain ⟨part, hpart, rfl⟩ := List.mem_map.mp hg
    obtain ⟨i, hi, hia⟩ := List.mem_filterMap.mp ha
    obtain ⟨j, hjb, hlink⟩ := link.positions hn all hia
    exact List.mem_filterMap.mpr ⟨j, h.closed hpart hi hlink, hjb⟩

end Positions

/-- Connected lists hold every item once, whatever is related. -/
theorem flatten_connectedWithin_perm (inReach related : β → β → Bool) (items : List β) :
    (connectedWithin inReach related items).flatten.Perm items := by
  rw [connectedWithin, ← List.filterMap_flatten]
  apply ((Partition.flatten_groups_perm _).filterMap _).trans
  rw [Partition.size_unionAll, Partition.size, Partition.discrete, Array.size_range,
    filterMap_getElem?_range]

theorem mem_takeWhile_of_sorted {κ : Type} {le : κ → κ → Prop} {p : κ → Bool} {l : List κ}
    (sorted : l.Pairwise le) {x : κ} (hx : x ∈ l) (hp : ∀ c, c = x ∨ le c x → p c = true) :
    x ∈ l.takeWhile p := by
  induction l with
  | nil => exact hx
  | cons c l ih =>
    obtain ⟨hc, hl⟩ := List.pairwise_cons.mp sorted
    rcases List.mem_cons.mp hx with rfl | hx
    · rw [List.takeWhile_cons_of_pos (hp x (.inl rfl))]
      exact List.mem_cons_self
    · rw [List.takeWhile_cons_of_pos (hp c (.inr (hc x hx)))]
      exact List.mem_cons_of_mem c (ih hl hx)

section Search

variable {inReach related : β → β → Bool} {le : β → β → Prop}

/-- The search finds the related pairs in list order, all of them if the reach covers what
stands before a related entry. -/
theorem mem_relatedPairs (reach : ∀ a b c, related a b = true → c = b ∨ le c b → inReach a c = true)
    {l : List (β × Nat)} (sorted : l.Pairwise fun x y => le x.1 y.1) {i j : Nat} :
    (i, j) ∈ relatedPairs inReach related l ↔
      ∃ a b, [(a, i), (b, j)].Sublist l ∧ related a b = true := by
  induction l with
  | nil => simp [relatedPairs]
  | cons x rest ih =>
    obtain ⟨_, hrest⟩ := List.pairwise_cons.mp sorted
    rw [relatedPairs, List.mem_append, ih hrest]
    constructor
    · rintro (h | ⟨a, b, hsub, hab⟩)
      · obtain ⟨⟨b, k⟩, hb, heq⟩ := List.mem_map.mp h
        obtain ⟨rfl, rfl⟩ := Prod.mk.injEq .. ▸ heq
        obtain ⟨hb, hab⟩ := List.mem_filter.mp hb
        have hmem : (b, k) ∈ rest := (List.takeWhile_sublist _).subset hb
        exact ⟨x.1, b, (List.singleton_sublist.mpr hmem).cons_cons x, hab⟩
      · exact ⟨a, b, hsub.cons x, hab⟩
    · rintro ⟨a, b, hsub, hab⟩
      rcases List.sublist_cons_iff.mp hsub with hsub | ⟨tail, heq, htail⟩
      · exact .inr ⟨a, b, hsub, hab⟩
      · left
        obtain ⟨rfl, rfl⟩ := List.cons.injEq .. ▸ heq
        have hb : (b, j) ∈ rest := List.singleton_sublist.mp htail
        have hreach := mem_takeWhile_of_sorted (p := fun y => inReach a y.1) hrest hb (by
          intro c hc
          exact reach a b c.1 hab (hc.imp_left (congrArg Prod.fst)))
        exact List.mem_map.mpr ⟨(b, j), List.mem_filter.mpr ⟨hreach, hab⟩, rfl⟩

theorem mem_relatedPairs_zipIdx
    (reach : ∀ a b c, related a b = true → c = b ∨ le c b → inReach a c = true)
    {items : List β} (sorted : items.Pairwise le) {i j : Nat} :
    (i, j) ∈ relatedPairs inReach related items.zipIdx ↔
      ∃ a b, [(a, i), (b, j)].Sublist items.zipIdx ∧ related a b = true := by
  apply mem_relatedPairs reach
  rw [← List.pairwise_map, List.zipIdx_map_fst]
  exact sorted

/-- Connected lists are the components of the relation, read in list order. -/
theorem connectedWithin_components {items : List β} (hn : items.Nodup)
    (sorted : items.Pairwise le)
    (reach : ∀ a b c, related a b = true → c = b ∨ le c b → inReach a c = true) :
    IsComponents (InOrder related items) items (connectedWithin inReach related items) := by
  have entries : ∀ {a b : β} {i j : Nat}, [(a, i), (b, j)].Sublist items.zipIdx →
      items[i]? = some a ∧ items[j]? = some b := by
    intro a b i j hsub
    have ha : (a, i) ∈ items.zipIdx := hsub.subset (by simp)
    have hb : (b, j) ∈ items.zipIdx := hsub.subset (by simp)
    exact ⟨List.mem_zipIdx_iff_getElem?.mp ha, List.mem_zipIdx_iff_getElem?.mp hb⟩
  have bounded : ∀ p ∈ relatedPairs inReach related items.zipIdx,
      p.1 < items.length ∧ p.2 < items.length := by
    intro p hp
    obtain ⟨a, b, hsub, _⟩ := (mem_relatedPairs_zipIdx reach sorted).mp hp
    obtain ⟨ha, hb⟩ := entries hsub
    exact ⟨(List.getElem?_eq_some_iff.mp ha).1, (List.getElem?_eq_some_iff.mp hb).1⟩
  apply (Partition.generated_unionAll bounded).groups.of_positions hn
  · intro i j a b hij ha hb
    obtain ⟨a', b', hsub, hab⟩ := (mem_relatedPairs_zipIdx reach sorted).mp hij
    obtain ⟨ha', hb'⟩ := entries hsub
    obtain rfl : a = a' := Option.some.inj (ha.symm.trans ha')
    obtain rfl : b = b' := Option.some.inj (hb.symm.trans hb')
    have hmap := hsub.map Prod.fst
    rw [List.zipIdx_map_fst] at hmap
    exact ⟨hmap, hab⟩
  · rintro a b ⟨hsub, hab⟩
    rw [← List.zipIdx_map_fst 0 items] at hsub
    obtain ⟨pairs, hpairs, heq⟩ := List.sublist_map_iff.mp hsub
    match pairs, heq with
    | [(_, i), (_, j)], heq =>
      simp only [List.map_cons, List.map_nil, List.cons.injEq, and_true] at heq
      obtain ⟨rfl, rfl⟩ := heq
      obtain ⟨ha, hb⟩ := entries hpairs
      exact ⟨i, j, ha, hb, (mem_relatedPairs_zipIdx reach sorted).mpr ⟨_, _, hpairs, hab⟩⟩

theorem connected_components {items : List β} (hn : items.Nodup) :
    IsComponents (InOrder related items) items (connected related items) := by
  have sorted : items.Pairwise fun _ _ => True :=
    List.pairwise_iff_forall_sublist.mpr fun _ => trivial
  exact connectedWithin_components hn sorted fun _ _ _ _ _ => rfl

end Search

section Groups

variable {related : β → β → Bool} {items : List β}

theorem relatedPairs_entries {i j : Nat}
    (h : (i, j) ∈ relatedPairs (fun _ _ => true) related items.zipIdx) :
    ∃ a b, items[i]? = some a ∧ items[j]? = some b ∧ related a b = true := by
  have sorted : items.Pairwise fun _ _ => True :=
    List.pairwise_iff_forall_sublist.mpr fun _ => trivial
  obtain ⟨a, b, hsub, hab⟩ := (mem_relatedPairs_zipIdx (fun _ _ _ _ _ => rfl) sorted).mp h
  have ha : (a, i) ∈ items.zipIdx := hsub.subset (by simp)
  have hb : (b, j) ∈ items.zipIdx := hsub.subset (by simp)
  exact ⟨a, b, List.mem_zipIdx_iff_getElem?.mp ha, List.mem_zipIdx_iff_getElem?.mp hb, hab⟩

def RelatedAt (related : β → β → Bool) (items : List β) (i j : Nat) : Prop :=
  i < j ∧ ∃ a b, items[i]? = some a ∧ items[j]? = some b ∧ related a b = true

theorem zipIdx_sorted (xs : List β) : xs.zipIdx.Pairwise fun a b => a.2 < b.2 := by
  rw [← List.pairwise_map (f := Prod.snd) (R := (· < ·)), List.zipIdx_map_snd]
  exact List.pairwise_lt_range'

/-- With everything in reach the search finds all related pairs. -/
theorem mem_relatedPairs_iff {i j : Nat} :
    (i, j) ∈ relatedPairs (fun _ _ => true) related items.zipIdx ↔
      RelatedAt related items i j := by
  have sorted : items.Pairwise fun _ _ => True :=
    List.pairwise_iff_forall_sublist.mpr fun _ => trivial
  have hpositions : ∀ {x y : β × Nat}, [x, y].Sublist items.zipIdx → x.2 < y.2 :=
    List.pairwise_iff_forall_sublist.mp (zipIdx_sorted items)
  constructor
  · intro h
    obtain ⟨a, b, hsub, _⟩ := (mem_relatedPairs_zipIdx (fun _ _ _ _ _ => rfl) sorted).mp h
    exact ⟨hpositions hsub, relatedPairs_entries h⟩
  · rintro ⟨hlt, a, b, ha, hb, hab⟩
    refine (mem_relatedPairs_zipIdx (fun _ _ _ _ _ => rfl) sorted).mpr ⟨a, b, ?_, hab⟩
    have hne : (a, i) ≠ (b, j) := fun heq => hlt.ne (Prod.mk.inj heq).2
    rcases pair_sublist_of_ne (List.mem_zipIdx_iff_getElem?.mpr ha)
      (List.mem_zipIdx_iff_getElem?.mpr hb) hne with hsub | hsub
    · exact hsub
    · exact absurd (hpositions hsub) hlt.asymm

/-- The positions are joined into the classes that related entries generate. -/
theorem generated_relatedPairs (related : β → β → Bool) (items : List β) :
    Partition.Generated items.length (relatedPairs (fun _ _ => true) related items.zipIdx)
      ((Partition.discrete items.length).unionAll
        (relatedPairs (fun _ _ => true) related items.zipIdx)) := by
  apply Partition.generated_unionAll
  intro p hp
  obtain ⟨a, b, ha, hb, _⟩ := relatedPairs_entries hp
  exact ⟨(List.getElem?_eq_some_iff.mp ha).1, (List.getElem?_eq_some_iff.mp hb).1⟩

/-- Connected lists hold the entries at the positions that related entries join, the positions
ascending within a list and from the first of one list to that of the next. -/
theorem connected_positions (related : β → β → Bool) (items : List β) : ∃ parts,
    connected related items = parts.map (fun part => part.filterMap (items[·]?)) ∧
      IsComponents (RelatedAt related items) (List.range items.length) parts ∧
      Partition.Ascending parts := by
  refine ⟨_, rfl, ?_, Partition.groups_ascending _⟩
  apply (generated_relatedPairs related items).groups.congr
  intro i j
  rw [Linked, Linked, Partition.Paired, Partition.Paired, mem_relatedPairs_iff,
    mem_relatedPairs_iff]

/-- A connected list keeps the order of the items, and holds two related ones if it holds two. -/
theorem connected_group {group : List β} (h : group ∈ connected related items) :
    group.Sublist items ∧ (2 ≤ group.length → ∃ a ∈ group, ∃ b ∈ group, related a b = true) := by
  obtain ⟨part, hpart, rfl⟩ := List.mem_map.mp h
  have hgenerated := generated_relatedPairs related items
  obtain ⟨_, r, hmembers⟩ := Partition.mem_groups hpart
  have hsub : part.Sublist (List.range items.length) := by
    rw [hmembers, Partition.members, hgenerated.size]
    exact List.filter_sublist
  constructor
  · have hfilter := hsub.filterMap (items[·]?)
    rwa [filterMap_getElem?_range] at hfilter
  · intro hlength
    have hnodup := hsub.nodup List.nodup_range
    obtain ⟨i, j, rest, rfl⟩ : ∃ i j rest, part = i :: j :: rest := by
      have hlong : 2 ≤ part.length := hlength.trans (List.length_filterMap_le _ _)
      rcases part with _ | ⟨i, _ | ⟨j, rest⟩⟩
      · simp at hlong
      · simp at hlong
      · exact ⟨i, j, rest, rfl⟩
    have hij : i ≠ j := fun heq => (List.nodup_cons.mp hnodup).1 (heq ▸ List.mem_cons_self)
    have hi : i ∈ i :: j :: rest := List.mem_cons_self
    have hj : j ∈ i :: j :: rest := List.mem_cons_of_mem i List.mem_cons_self
    have path : Relation.ReflTransGen _ i j := hgenerated.groups.joined hpart hi hj
    rcases path.cases_head with heq | ⟨k, link, _⟩
    · exact absurd heq hij
    · have hk := hgenerated.groups.closed hpart hi link
      rcases link.2.2 with hik | hki
      · obtain ⟨a, b, ha, hb, hab⟩ := relatedPairs_entries hik
        exact ⟨a, List.mem_filterMap.mpr ⟨i, hi, ha⟩, b, List.mem_filterMap.mpr ⟨k, hk, hb⟩, hab⟩
      · obtain ⟨a, b, ha, hb, hab⟩ := relatedPairs_entries hki
        exact ⟨a, List.mem_filterMap.mpr ⟨k, hk, ha⟩, b, List.mem_filterMap.mpr ⟨i, hi, hb⟩, hab⟩

/-- Items that nothing relates stay apart. -/
theorem connected_unrelated (h : ∀ a ∈ items, ∀ b ∈ items, related a b = false) :
    connected related items = items.map ([·]) := by
  have hpairs : relatedPairs (fun _ _ => true) related items.zipIdx = [] := by
    rw [List.eq_nil_iff_forall_not_mem]
    rintro ⟨i, j⟩ hij
    obtain ⟨a, b, ha, hb, hab⟩ := relatedPairs_entries hij
    have hfalse := h a (List.mem_of_getElem? ha) b (List.mem_of_getElem? hb)
    exact absurd (hfalse.symm.trans hab) Bool.false_ne_true
  have hmembers : ∀ r ∈ List.range items.length,
      (Partition.discrete items.length).members r = [r] := by
    intro r hr
    have hsize : (Partition.discrete items.length).size = items.length := Array.size_range
    simp only [Partition.members, hsize, Partition.root_discrete, List.filter_beq,
      List.count_eq_one_of_mem List.nodup_range hr, List.replicate_one]
  have hgroups : (Partition.discrete items.length).groups =
      (List.range items.length).map ([·]) := by
    have hsize : (Partition.discrete items.length).size = items.length := Array.size_range
    rw [Partition.groups_eq, hsize, List.map_congr_left hmembers]
    simp
  rw [connected, connectedWithin, hpairs, Partition.unionAll, List.foldl_nil, hgroups,
    List.map_map]
  apply List.ext_getElem
  · simp
  · intro i hi _
    have hbound : i < items.length := by simpa using hi
    simp [hbound]

end Groups

end ShowerTrack
