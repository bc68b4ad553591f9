import ShowerTrack.Proofs.Foremost
import ShowerTrack.Proofs.Painted

/-!
# The clusters of an island

The clusters that an island of a sector is split into list its blocks in cells of the island, each
of them once in a cluster. Where an island gives several clusters, all of them are flagged.
-/

set_option autoImplicit false

namespace ShowerTrack

variable {α : Type} [Scalar α]

namespace BlockCluster

def ids (c : BlockCluster α) : List Int := c.hits.map (·.id)

/-- The center of a cluster is the hit with the largest energy. -/
theorem center_ofHits [Scalar.Ordered α] {hs : List (BlockHit α)} {m : BlockHit α} (hm : m ∈ hs)
    (hlargest : ∀ h ∈ hs, h ≠ m → h.energy < m.energy) : (ofHits hs).center = m := by
  have hfirst := firstHighest_ofHits (List.ne_nil_of_mem hm)
  by_contra hne
  exact hfirst.not_beats m hm (hlargest _ hfirst.mem hne)

theorem flags_addAll (c : BlockCluster α) (hs : List (BlockHit α)) :
    (c.addAll hs).flags = c.flags := by
  induction hs generalizing c with
  | nil => rfl
  | cons h hs ih => exact ih (c.add h)

theorem hits_mergeAll (cs : List (BlockCluster α)) : (mergeAll cs).hits = cs.flatMap (·.hits) := by
  have hfold : ∀ c : BlockCluster α, (cs.foldl merge c).hits = c.hits ++ cs.flatMap (·.hits) := by
    induction cs with
    | nil => simp
    | cons d cs ih =>
      intro c
      rw [List.foldl_cons, ih, List.flatMap_cons, ← List.append_assoc]
      rfl
  exact hfold empty

/-- Merged clusters carry every bit that one of them carries. -/
theorem getLsbD_mergeAll (cs : List (BlockCluster α)) (i : Nat) :
    (mergeAll cs).flags.bits.getLsbD i = cs.any (·.flags.bits.getLsbD i) := by
  have hfold : ∀ c : BlockCluster α, (cs.foldl merge c).flags.bits.getLsbD i =
      (c.flags.bits.getLsbD i || cs.any (·.flags.bits.getLsbD i)) := by
    induction cs with
    | nil => simp
    | cons d cs ih =>
      intro c
      rw [List.foldl_cons, ih, merge, Flags.union, BitVec.getLsbD_or, List.any_cons, Bool.or_assoc]
  have hempty : (empty : BlockCluster α).flags.bits.getLsbD i = false := BitVec.getLsbD_zero
  rw [mergeAll, hfold, hempty, Bool.false_or]

theorem test_mergeAll (cs : List (BlockCluster α)) (b : Flag) :
    (mergeAll cs).flags.test b = cs.any (·.flags.test b) :=
  getLsbD_mergeAll cs b.bit

end BlockCluster

namespace Grid

variable (g : Grid α) (s : GridSettings α) (profile : α → α → α) (island : List Cell)

/-- The ways of splitting an island: no peak, one peak, or several that share it. -/
theorem split_cases :
    (island.filter (g.isPeak s) = [] ∧ g.split s profile island = []) ∨
      (∃ peak, island.filter (g.isPeak s) = [peak] ∧
        g.split s profile island = [cluster (island.map fun c => (c, g.energy c)) peak false]) ∨
      (2 ≤ (island.filter (g.isPeak s)).length ∧
        g.split s profile island = (island.filter (g.isPeak s)).zipIdx.map fun x =>
          g.sharedCluster s ((g.sharing profile island (island.filter (g.isPeak s))).shares
            s.splitIterations) x.1 x.2) := by
  unfold split
  split
  · rename_i hpeaks
    exact .inl ⟨hpeaks, rfl⟩
  · rename_i peak hpeaks
    exact .inr (.inl ⟨peak, hpeaks, rfl⟩)
  · rename_i hnil hone
    refine .inr (.inr ⟨?_, rfl⟩)
    match hpeaks : island.filter (g.isPeak s) with
    | [] => exact absurd hpeaks hnil
    | [peak] => exact absurd hpeaks (hone peak)
    | _ :: _ :: _ => simp

variable {g s profile island}

theorem cells_of_mem_split {raw : GridCluster α} (h : raw ∈ g.split s profile island) :
    (raw.cells.map Prod.fst).Sublist island := by
  rcases g.split_cases s profile island with ⟨_, hsplit⟩ | ⟨peak, _, hsplit⟩ | ⟨_, hsplit⟩
  · rw [hsplit] at h
    exact absurd h List.not_mem_nil
  · rw [hsplit, List.mem_singleton] at h
    subst h
    simp [cluster, Function.comp_def]
  · rw [hsplit] at h
    obtain ⟨x, _, rfl⟩ := List.mem_map.mp h
    have hrows : ∀ rows : List (Cell × Array α),
        ((g.sharedCluster s rows x.1 x.2).cells.map Prod.fst).Sublist (rows.map Prod.fst) := by
      intro rows
      simp only [sharedCluster, cluster, List.map_map]
      exact List.filter_sublist.map _
    have hitems := hrows ((g.sharing profile island (island.filter (g.isPeak s))).shares
      s.splitIterations)
    rwa [Sharing.shares, Sharing.rowsAfter_items] at hitems

theorem peak_of_mem_split {raw : GridCluster α} (h : raw ∈ g.split s profile island) :
    raw.peak ∈ island ∧ raw.peak ∈ raw.cells.map Prod.fst := by
  rcases g.split_cases s profile island with ⟨_, hsplit⟩ | ⟨peak, hpeaks, hsplit⟩ | ⟨_, hsplit⟩
  · rw [hsplit] at h
    exact absurd h List.not_mem_nil
  · rw [hsplit, List.mem_singleton] at h
    subst h
    have hpeak : peak ∈ island := List.mem_of_mem_filter (hpeaks ▸ List.mem_singleton_self peak)
    refine ⟨hpeak, ?_⟩
    simpa [cluster, Function.comp_def] using hpeak
  · rw [hsplit] at h
    obtain ⟨x, hx, rfl⟩ := List.mem_map.mp h
    have hpeak : x.1 ∈ island := List.mem_of_mem_filter (List.fst_mem_of_mem_zipIdx hx)
    refine ⟨hpeak, ?_⟩
    have hrows : ∀ rows : List (Cell × Array α), x.1 ∈ rows.map Prod.fst →
        x.1 ∈ (g.sharedCluster s rows x.1 x.2).cells.map Prod.fst := by
      intro rows hmem
      obtain ⟨row, hrow, hcell⟩ := List.mem_map.mp hmem
      simp only [sharedCluster, cluster, List.map_map, List.mem_map]
      exact ⟨row, List.mem_filter.mpr ⟨hrow, by simp [hcell]⟩, hcell⟩
    apply hrows
    rwa [Sharing.shares, Sharing.rowsAfter_items]

theorem length_split : (g.split s profile island).length =
    (island.filter (g.isPeak s)).length := by
  rcases g.split_cases s profile island with ⟨hnil, hsplit⟩ | ⟨peak, hone, hsplit⟩ | ⟨_, hsplit⟩
  · rw [hsplit, hnil]
    rfl
  · rw [hsplit, hone]
    rfl
  · rw [hsplit, List.length_map, List.length_zipIdx]

theorem split_single (profile : α → α → α) (h : (island.filter (g.isPeak s)).length = 1) : ∃ peak,
    g.split s profile island = [cluster (island.map fun c => (c, g.energy c)) peak false] := by
  rcases g.split_cases s profile island with ⟨hnil, _⟩ | ⟨peak, _, hsplit⟩ | ⟨hmany, _⟩
  · rw [hnil] at h
    cases h
  · exact ⟨peak, hsplit⟩
  · omega

theorem split_of_mem (h : 2 ≤ (island.filter (g.isPeak s)).length) {raw : GridCluster α}
    (hraw : raw ∈ g.split s profile island) : raw.split = true := by
  rcases g.split_cases s profile island with ⟨hnil, _⟩ | ⟨peak, hone, _⟩ | ⟨_, hsplit⟩
  · rw [hnil] at h
    cases h
  · rw [hone, List.length_singleton] at h
    omega
  · rw [hsplit] at hraw
    obtain ⟨x, _, rfl⟩ := List.mem_map.mp hraw
    rfl

/-- Two clusters of one island are parts of it. -/
theorem split_of_several : (g.split s profile island).Pairwise fun a b =>
    a.split = true ∧ b.split = true := by
  rcases g.split_cases s profile island with ⟨_, hsplit⟩ | ⟨peak, _, hsplit⟩ | ⟨_, hsplit⟩
  · rw [hsplit]
    exact .nil
  · rw [hsplit]
    exact List.pairwise_singleton _ _
  · rw [hsplit, List.pairwise_map]
    exact List.pairwise_of_forall fun _ _ => ⟨rfl, rfl⟩

end Grid

namespace Primex

variable {hits : List (BlockHit α)} {raw : GridCluster α}

def measuredAt (hits : List (BlockHit α)) (x : Cell × α) : Option (BlockHit α) :=
  (hitAt? hits x.1).map fun hit => { hit with energy := x.2 }

theorem hits_toCluster (hits : List (BlockHit α)) (raw : GridCluster α) :
    (toCluster hits raw).hits = ((raw.cells.find? (·.1 == raw.peak)).toList ++
      raw.cells.filter (·.1 != raw.peak)).filterMap (measuredAt hits) := by
  unfold toCluster
  simp only
  split
  · exact BlockCluster.hits_ofHits _
  · exact BlockCluster.hits_ofHits _

theorem flags_toCluster (hits : List (BlockHit α)) (raw : GridCluster α) :
    (toCluster hits raw).flags = if raw.split then Flags.empty.set .split else .empty := by
  unfold toCluster
  simp only
  split
  · rw [BlockCluster.setFlag, BlockCluster.ofHits, BlockCluster.flags_addAll]
    rfl
  · rw [BlockCluster.ofHits, BlockCluster.flags_addAll]
    rfl

theorem center_toCluster (hits : List (BlockHit α)) (raw : GridCluster α) :
    (toCluster hits raw).center = (BlockCluster.ofHits (toCluster hits raw).hits).center := by
  unfold toCluster
  simp only
  split
  · rw [BlockCluster.setFlag, BlockCluster.hits_ofHits]
  · rw [BlockCluster.hits_ofHits]

/-- Putting the peak first keeps the cells of a cluster. -/
theorem hits_toCluster_perm (hn : (raw.cells.map Prod.fst).Nodup) :
    (toCluster hits raw).hits.Perm (raw.cells.filterMap (measuredAt hits)) := by
  have hpeak : (raw.cells.find? (·.1 == raw.peak)).toList =
      raw.cells.filter (·.1 == raw.peak) := by
    rw [← List.head?_filter]
    by_cases hmem : ∃ x ∈ raw.cells, x.1 = raw.peak
    · obtain ⟨x, hx, hxpeak⟩ := hmem
      rw [← hxpeak, filter_key_eq hn hx]
      rfl
    · have hnone : raw.cells.filter (·.1 == raw.peak) = [] := by
        rw [List.filter_eq_nil_iff]
        intro x hx hxpeak
        exact hmem ⟨x, hx, beq_iff_eq.mp hxpeak⟩
      rw [hnone]
      rfl
  rw [hits_toCluster, hpeak]
  exact (List.filter_append_perm (·.1 == raw.peak) raw.cells).filterMap _

theorem origin_of_mem_toCluster {k : BlockHit α} (hk : k ∈ (toCluster hits raw).hits) :
    (∃ hit ∈ hits, hit.id = k.id ∧ hit.site = k.site) ∧ k.site.cell ∈ raw.cells.map Prod.fst := by
  rw [hits_toCluster] at hk
  obtain ⟨x, hx, hmeasured⟩ := List.mem_filterMap.mp hk
  obtain ⟨hit, hhit, rfl⟩ := Option.map_eq_some_iff.mp hmeasured
  obtain ⟨hmem, hcell⟩ := hitAt?_some hhit
  refine ⟨⟨hit, hmem, rfl, rfl⟩, ?_⟩
  have hxcells : x ∈ raw.cells := by
    rcases List.mem_append.mp hx with hpeak | hrest
    · exact List.mem_of_find?_eq_some (Option.mem_toList.mp hpeak)
    · exact List.mem_of_mem_filter hrest
  exact List.mem_map.mpr ⟨x, hxcells, hcell.symm⟩

theorem toCluster_inhabited (hn : (raw.cells.map Prod.fst).Nodup)
    (hpeak : raw.peak ∈ raw.cells.map Prod.fst) (hhit : ∃ hit, hitAt? hits raw.peak = some hit) :
    (toCluster hits raw).isEmpty = false := by
  obtain ⟨x, hx, hxpeak⟩ := List.mem_map.mp hpeak
  obtain ⟨hit, hhit⟩ := hhit
  have hmem : { hit with energy := x.2 } ∈ (toCluster hits raw).hits := by
    rw [(hits_toCluster_perm hn).mem_iff, List.mem_filterMap]
    exact ⟨x, hx, by rw [measuredAt, hxpeak, hhit]; rfl⟩
  rw [BlockCluster.isEmpty, List.isEmpty_eq_false_iff]
  exact List.ne_nil_of_mem hmem

/-- Different cells have different blocks. -/
theorem nodup_ids_toCluster (hids : (hits.map (·.id)).Nodup)
    (hn : (raw.cells.map Prod.fst).Nodup) : (toCluster hits raw).ids.Nodup := by
  rw [BlockCluster.ids, ((hits_toCluster_perm hn).map _).nodup_iff, List.map_filterMap]
  have hcells : (raw.cells.filterMap fun x => (measuredAt hits x).map (·.id)) =
      (raw.cells.map Prod.fst).filterMap fun c => (hitAt? hits c).map (·.id) := by
    rw [List.filterMap_map]
    apply List.filterMap_congr
    intro x _
    rw [measuredAt, Option.map_map]
    rfl
  rw [hcells]
  apply hn.filterMap
  intro c d id hc hd
  obtain ⟨a, ha, haid⟩ := Option.map_eq_some_iff.mp hc
  obtain ⟨b, hb, hbid⟩ := Option.map_eq_some_iff.mp hd
  obtain ⟨hamem, hacell⟩ := hitAt?_some ha
  obtain ⟨hbmem, hbcell⟩ := hitAt?_some hb
  obtain rfl := List.inj_on_of_nodup_map hids hamem hbmem (haid.trans hbid.symm)
  exact hacell.symm.trans hbcell

end Primex

end ShowerTrack
