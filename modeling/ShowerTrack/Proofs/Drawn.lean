import ShowerTrack.Calorimeter.State
import ShowerTrack.Proofs.Agreement

/-!
# Drawn hits

The island method cuts the hits above the threshold into groups and shares each group between its
maxima; the window method gives every hit to one window at most. Whichever it is, the blocks of a
cluster are drawn from those that were hit, and none of them twice.
-/

set_option autoImplicit false

namespace ShowerTrack

variable {α : Type}

/-- The cluster lists blocks out of the given ones, each once. -/
structure BlockCluster.DrawnFrom (c : BlockCluster α) (blocks : List Int) : Prop where
  nodup : c.ids.Nodup
  subset : c.ids ⊆ blocks

namespace Island

theorem flatten_sectorGroups_perm (corners : Bool) (hits : List (BlockHit α)) :
    (sectorGroups corners hits).flatten.Perm hits := by
  have hchains : (chains hits).flatMap (·.hits) = inColumns hits := by
    rw [List.flatMap_def, map_hits_chains, runs, List.flatten_splitBy]
  rw [sectorGroups]
  apply (flatten_flatMap_perm (flatten_connectedWithin_perm _ _ (chains hits))
    (fun chain => chain.hits)).trans
  rw [hchains]
  exact List.mergeSort_perm hits columnOrder

variable [Scalar α]

/-- Every hit above the threshold is in one group. -/
theorem flatten_groups_perm (s : CaloSettings α) (hits : List (BlockHit α)) :
    (groups s hits).flatten.Perm (Primex.live s hits) := by
  have hgroups : groups s hits =
      glue s.corners (sectorBlocks s.corners (Primex.live s hits)) := rfl
  have hblocks : (sectorBlocks s.corners (Primex.live s hits)).flatMap (·.2) =
      (hitSectors (Primex.live s hits)).flatMap fun sector =>
        (sectorGroups s.corners (inSector sector (Primex.live s hits))).flatten := by
    rw [sectorBlocks, List.flatMap_assoc]
    apply List.flatMap_congr
    intro sector _
    rw [List.flatMap_map, List.flatMap_id']
  rw [hgroups, glue, connected]
  apply (flatten_flatMap_perm (flatten_connectedWithin_perm _ _ _)
    (fun block : Nat × List (BlockHit α) => block.2)).trans
  rw [hblocks]
  apply List.Perm.trans _ (flatMap_inSector_perm (Primex.live s hits))
  exact List.Perm.flatMap_left _ fun sector _ => flatten_sectorGroups_perm s.corners _

/-- The blocks of a group are different ones out of those that were hit. -/
theorem drawn_group (s : CaloSettings α) {hits group : List (BlockHit α)}
    (hn : (hits.map (·.id)).Nodup) (hg : group ∈ groups s hits) :
    (group.map (·.id)).Nodup ∧ group.map (·.id) ⊆ hits.map (·.id) := by
  have hperm := flatten_groups_perm s hits
  have hlive : ((Primex.live s hits).map (·.id)).Nodup :=
    hn.sublist (List.filter_sublist.map _)
  have hflat : ((groups s hits).map (List.map (·.id))).flatten.Nodup := by
    rw [← List.map_flatten]
    exact ((hperm.map _).nodup_iff).mpr hlive
  refine ⟨(List.nodup_flatten.mp hflat).1 _ (List.mem_map_of_mem hg), ?_⟩
  apply List.map_subset
  intro hit hh
  exact List.mem_of_mem_filter (hperm.subset (List.mem_flatten.mpr ⟨group, hg, hh⟩))

/-- A maximum stands in its cluster once, and so does every other hit. -/
theorem drawn_sharedCluster (s : CaloSettings α) {rows : List (BlockHit α × Array α)}
    (hn : (rows.map (·.1.id)).Nodup) {maximum : BlockHit α × Nat} {row : Array α}
    (hm : rows[maximum.2]? = some (maximum.1, row)) (k : Nat) :
    (sharedCluster s rows maximum k).DrawnFrom (rows.map (·.1.id)) := by
  have hothers := map_fst_filter_zipIdx hn hm fun r => !(r.2.getD k 0 < s.leastSplit)
  have hids : (sharedCluster s rows maximum k).ids = maximum.1.id ::
      (rows.filter fun r => r.1.id ≠ maximum.1.id && !(r.2.getD k 0 < s.leastSplit)).map
        (·.1.id) := by
    rw [← hothers]
    simp only [BlockCluster.ids, sharedCluster, BlockCluster.setFlag, BlockCluster.hits_addAll,
      List.map_append, List.map_map]
    rfl
  constructor
  · rw [hids, List.nodup_cons]
    refine ⟨?_, hn.sublist (List.filter_sublist.map _)⟩
    rw [List.mem_map]
    rintro ⟨r, hr, hid⟩
    have hne := (List.mem_filter.mp hr).2
    simp [hid] at hne
  · rw [hids, List.cons_subset]
    exact ⟨List.mem_map.mpr ⟨_, List.mem_of_getElem? hm, rfl⟩,
      (List.filter_sublist.map _).subset⟩

theorem map_fst_shares (s : CaloSettings α) (p : Profile α) (group : List (BlockHit α)) :
    ((sharing p group (localMaxima s group)).shares s.splitIterations).map (·.1) = group :=
  Sharing.rowsAfter_items _ _ _

theorem drawn_split (s : CaloSettings α) (p : Profile α) {group : List (BlockHit α)}
    (hn : (group.map (·.id)).Nodup) :
    ∀ c ∈ split s p group, c.DrawnFrom (group.map (·.id)) := by
  intro c hc
  rcases split_cases s p group with ⟨_, hsplit⟩ | ⟨_, hsplit⟩ | ⟨_, hsplit⟩
  · rw [hsplit] at hc
    exact absurd hc List.not_mem_nil
  · rw [hsplit, List.mem_singleton] at hc
    have hids : c.ids = group.map (·.id) := by
      rw [hc, BlockCluster.ids, BlockCluster.hits_ofHits]
    exact ⟨hids ▸ hn, hids ▸ List.Subset.refl _⟩
  · rw [hsplit] at hc
    obtain ⟨⟨maximum, k⟩, hx, rfl⟩ := List.mem_map.mp hc
    have hrows : ((sharing p group (localMaxima s group)).shares s.splitIterations).map (·.1.id) =
        group.map (·.id) := by
      have hmap := congrArg (List.map (·.id)) (map_fst_shares s p group)
      rw [List.map_map] at hmap
      exact hmap
    have hentry : group[maximum.2]? = some maximum.1 :=
      List.mem_zipIdx_iff_getElem?.mp (List.mem_of_mem_filter (List.fst_mem_of_mem_zipIdx hx))
    have hrow : ((sharing p group (localMaxima s group)).shares
        s.splitIterations)[maximum.2]?.map Prod.fst = some maximum.1 := by
      rw [← List.getElem?_map, map_fst_shares]
      exact hentry
    obtain ⟨⟨hit, row⟩, hrow, rfl⟩ := Option.map_eq_some_iff.mp hrow
    rw [← hrows]
    exact drawn_sharedCluster s (hrows ▸ hn) hrow k

theorem drawn_clusters (s : CaloSettings α) (p : Profile α) {hits : List (BlockHit α)}
    (hn : (hits.map (·.id)).Nodup) : ∀ c ∈ clusters s p hits, c.DrawnFrom (hits.map (·.id)) := by
  intro c hc
  obtain ⟨group, hg, hc⟩ := List.mem_flatMap.mp hc
  obtain ⟨hgroup, hsubset⟩ := drawn_group s hn hg
  have hdrawn := drawn_split s p hgroup c hc
  exact ⟨hdrawn.nodup, List.Subset.trans hdrawn.subset hsubset⟩

end Island

namespace Square

def free (seeds : List (Numbered α)) (hits : List (BlockHit α)) : List (BlockHit α) :=
  (hits.zipIdx.filter fun (_, i) => seeds.all fun seed => seed.2 != i).map (·.1)

theorem free_sublist (seeds : List (Numbered α)) (hits : List (BlockHit α)) :
    (free seeds hits).Sublist hits := by
  have hsub := (List.filter_sublist
    (p := fun x : Numbered α => seeds.all fun seed => seed.2 != x.2) (l := hits.zipIdx)).map
      Prod.fst
  rw [List.zipIdx_map_fst] at hsub
  exact hsub

theorem seed_or_free (seeds : List (Numbered α)) {hits : List (BlockHit α)} {hit : BlockHit α}
    {i : Nat} (hi : hits[i]? = some hit) :
    (∃ seed ∈ seeds, seed.2 = i) ∨ hit ∈ free seeds hits := by
  by_cases hfree : ∀ seed ∈ seeds, seed.2 ≠ i
  · right
    refine List.mem_map.mpr ⟨(hit, i), List.mem_filter.mpr
      ⟨List.mem_zipIdx_iff_getElem?.mpr hi, ?_⟩, rfl⟩
    exact List.all_eq_true.mpr fun seed hs => bne_iff_ne.mpr (hfree seed hs)
  · left
    push Not at hfree
    exact hfree

theorem id_ne_of_mem_free {seeds : List (Numbered α)} {hits : List (BlockHit α)}
    (hn : (hits.map (·.id)).Nodup) {seed : Numbered α} (hs : seed ∈ seeds)
    (hseed : hits[seed.2]? = some seed.1) {hit : BlockHit α} (hh : hit ∈ free seeds hits) :
    hit.id ≠ seed.1.id := by
  obtain ⟨⟨hit, i⟩, hi, rfl⟩ := List.mem_map.mp hh
  obtain ⟨hi, hfree⟩ := List.mem_filter.mp hi
  have hne : seed.2 ≠ i := bne_iff_ne.mp (List.all_eq_true.mp hfree seed hs)
  intro hid
  exact hne ((position_eq_iff hn (List.mem_zipIdx_iff_getElem?.mp hi) hseed).mpr hid).symm

/-- The hits that fall to a window come in the order of the free hits. -/
theorem owned_sublist (free : List (BlockHit α)) (owner : BlockHit α → Option Nat) (pos : Nat) :
    (((free.map fun hit => (hit, owner hit)).filter (·.2 == some pos)).map (·.1)).Sublist free := by
  have hsub := (List.filter_sublist (p := (·.2 == some pos))
    (l := free.map fun hit => (hit, owner hit))).map Prod.fst
  have hfst : (free.map fun hit => (hit, owner hit)).map Prod.fst = free := by
    rw [List.map_map]
    exact List.map_id free
  rw [hfst] at hsub
  exact hsub

variable [Scalar α]

/-- The first window that a maximum lies in is left as it is, or goes to the maximum. -/
theorem placeSeed_of_inside {size : Nat} {front : List (Numbered α)} {w x : Numbered α}
    (hfront : ∀ v ∈ front, inWindow size v.1 x.1 = false) (hinside : inWindow size w.1 x.1 = true)
    (back : List (Numbered α)) : placeSeed size (front ++ w :: back) x =
      front ++ (if w.1.energy < x.1.energy then x else w) :: back := by
  induction front with
  | nil => rw [List.nil_append, placeSeed, if_pos hinside, List.nil_append]
  | cons v front ih =>
    obtain ⟨hv, hrest⟩ := List.forall_mem_cons.mp hfront
    rw [List.cons_append, placeSeed, if_neg (Bool.eq_false_iff.mp hv), ih hrest, List.cons_append]

/-- A maximum opens a window of its own, or lies in a first one of the windows. -/
theorem placeSeed_cases (size : Nat) (placed : List (Numbered α)) (x : Numbered α) :
    ((∀ w ∈ placed, inWindow size w.1 x.1 = false) ∧ placeSeed size placed x = placed ++ [x]) ∨
    ∃ front w back, placed = front ++ w :: back ∧ (∀ v ∈ front, inWindow size v.1 x.1 = false) ∧
      inWindow size w.1 x.1 = true ∧
      placeSeed size placed x = front ++ (if w.1.energy < x.1.energy then x else w) :: back := by
  induction placed with
  | nil => exact .inl ⟨by simp, rfl⟩
  | cons w placed ih =>
    by_cases hinside : inWindow size w.1 x.1 = true
    · have hnone : ∀ v ∈ ([] : List (Numbered α)), inWindow size v.1 x.1 = false :=
        fun _ hv => absurd hv List.not_mem_nil
      exact .inr ⟨[], w, placed, rfl, hnone, hinside, placeSeed_of_inside hnone hinside placed⟩
    · have hout := Bool.eq_false_of_not_eq_true hinside
      rcases ih with ⟨hnone, hopens⟩ | ⟨front, v, back, rfl, hfront, hv, _⟩
      · refine .inl ⟨List.forall_mem_cons.mpr ⟨hout, hnone⟩, ?_⟩
        rw [placeSeed, if_neg hinside, hopens, List.cons_append]
      · have hbefore : ∀ u ∈ w :: front, inWindow size u.1 x.1 = false :=
          List.forall_mem_cons.mpr ⟨hout, hfront⟩
        exact .inr ⟨w :: front, v, back, rfl, hbefore, hv, placeSeed_of_inside hbefore hv back⟩

theorem mem_placeSeed {size : Nat} {placed : List (Numbered α)} {x seed : Numbered α}
    (h : seed ∈ placeSeed size placed x) : seed ∈ placed ∨ seed = x := by
  rcases placeSeed_cases size placed x with ⟨_, hopens⟩ | ⟨front, w, back, rfl, _, _, hput⟩
  · rw [hopens, List.mem_append, List.mem_singleton] at h
    exact h
  · rw [hput] at h
    split at h
    · rw [List.mem_append, List.mem_cons] at h ⊢
      tauto
    · exact .inl h

theorem mem_foldl_placeSeed {size : Nat} {maxima placed : List (Numbered α)} {seed : Numbered α}
    (h : seed ∈ maxima.foldl (placeSeed size) placed) : seed ∈ placed ∨ seed ∈ maxima := by
  induction maxima generalizing placed with
  | nil => exact .inl h
  | cons hit maxima ih =>
    rcases ih h with hplaced | hlater
    · rcases mem_placeSeed hplaced with hold | rfl
      · exact .inl hold
      · exact .inr List.mem_cons_self
    · exact .inr (List.mem_cons_of_mem hit hlater)

def maxima (s : CaloSettings α) (hits : List (BlockHit α)) : List (Numbered α) :=
  hits.zipIdx.filter fun (hit, _) => isSeed s hits hit

theorem mem_maxima_of_mem_seeds {s : CaloSettings α} {hits : List (BlockHit α)}
    {seed : Numbered α} (h : seed ∈ seeds s hits) : seed ∈ maxima s hits :=
  (mem_foldl_placeSeed h).resolve_left List.not_mem_nil

theorem getElem?_of_mem_seeds {s : CaloSettings α} {hits : List (BlockHit α)} {seed : Numbered α}
    (h : seed ∈ seeds s hits) : hits[seed.2]? = some seed.1 :=
  List.mem_zipIdx_iff_getElem?.mp (List.mem_of_mem_filter (mem_maxima_of_mem_seeds h))

theorem ids_window (owned : List (BlockHit α × Option Nat)) (seed : Numbered α) (pos : Nat) :
    (window owned seed pos).ids =
      seed.1.id :: ((owned.filter (·.2 == some pos)).map (·.1)).map (·.id) := by
  simp only [BlockCluster.ids, window, BlockCluster.hits_addAll, List.map_append]
  rfl

theorem drawn_clusters (s : CaloSettings α) {hits : List (BlockHit α)}
    (hn : (hits.map (·.id)).Nodup) : ∀ c ∈ clusters s hits, c.DrawnFrom (hits.map (·.id)) := by
  intro c hc
  obtain ⟨⟨seed, pos⟩, hx, rfl⟩ := List.mem_map.mp hc
  have hs : seed ∈ seeds s (Primex.live s hits) := List.fst_mem_of_mem_zipIdx hx
  have hseed := getElem?_of_mem_seeds hs
  have hlive : ((Primex.live s hits).map (·.id)).Nodup :=
    hn.sublist (List.filter_sublist.map _)
  have hsubset : (Primex.live s hits).map (·.id) ⊆ hits.map (·.id) :=
    (List.filter_sublist.map _).subset
  have howned := owned_sublist (free (seeds s (Primex.live s hits)) (Primex.live s hits))
    (owner? s.squareSize (seeds s (Primex.live s hits))) pos
  have hids := (howned.trans (free_sublist _ _)).map (·.id)
  constructor
  · rw [ids_window, List.nodup_cons]
    refine ⟨?_, hlive.sublist hids⟩
    rw [List.mem_map]
    rintro ⟨hit, hh, hid⟩
    exact id_ne_of_mem_free hlive hs hseed (howned.subset hh) hid
  · rw [ids_window, List.cons_subset]
    exact ⟨hsubset (List.mem_map_of_mem (List.mem_of_getElem? hseed)),
      List.Subset.trans hids.subset hsubset⟩

end Square

/-- The methods without glued sectors draw every cluster from different blocks. -/
theorem CaloSettings.drawn_clusters [Scalar α] {s : CaloSettings α} (hmethod : s.method ≠ .primex)
    (p : Profile α) {hits : List (BlockHit α)} (hn : (hits.map (·.id)).Nodup) :
    ∀ c ∈ s.clusters p hits, c.DrawnFrom (hits.map (·.id)) := by
  rw [CaloSettings.clusters]
  split
  · exact Square.drawn_clusters s hn
  · exact Island.drawn_clusters s p hn
  · rename_i hprimex
    exact absurd hprimex hmethod

end ShowerTrack
