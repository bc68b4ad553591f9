import ShowerTrack.Proofs.Checked.Forest
import ShowerTrack.Proofs.Checked.Profile
import ShowerTrack.Proofs.Checked.Sharing
import ShowerTrack.Proofs.SplitEnergy

/-!
# Checked islands

Hits go into the bucket of their sector, maxima are positions in their group, and shares have a
row for each hit and an entry for each maximum.
-/

set_option autoImplicit false

namespace ShowerTrack.Checked

section Sectors

variable {α : Type}

/-- Sorts some of the hits into buckets, one for each sector up to the last one that was hit. -/
def bySector (hits kept : List (BlockHit α)) : Option (List (List (BlockHit α))) := do
  let sectors := ((hits.map fun hit => hit.site.sector + 1).max?).getD 0
  let buckets ← kept.foldlM (fun buckets hit =>
    edit buckets hit.site.sector fun bucket => some (bucket ++ [hit])) (.replicate sectors [])
  some buckets.toList

theorem edit_bucket {n : Nat} (f : Nat → List (BlockHit α)) (hit : BlockHit α)
    (h : hit.site.sector < n) :
    edit ((List.range n).map f).toArray hit.site.sector (fun bucket => some (bucket ++ [hit])) =
      some ((List.range n).map fun k => f k ++ inSector k [hit]).toArray := by
  rw [edit_range h f (y := f hit.site.sector ++ [hit]) rfl]
  congr 3
  funext k
  by_cases hk : hit.site.sector = k
  · simp [inSector, hk]
  · simp [inSector, hk]

theorem foldlM_bucket {n : Nat} (f : Nat → List (BlockHit α)) {kept : List (BlockHit α)}
    (h : ∀ hit ∈ kept, hit.site.sector < n) :
    kept.foldlM (fun buckets hit => edit buckets hit.site.sector fun bucket =>
        some (bucket ++ [hit])) ((List.range n).map f).toArray =
      some ((List.range n).map fun k => f k ++ inSector k kept).toArray := by
  induction kept generalizing f with
  | nil => simp [inSector]
  | cons hit kept ih =>
    have hrest := ih (fun k => f k ++ inSector k [hit]) fun other ho =>
      h other (List.mem_cons_of_mem hit ho)
    rw [List.foldlM_cons, edit_bucket f hit (h hit List.mem_cons_self)]
    have happend : ∀ k, inSector k (hit :: kept) = inSector k [hit] ++ inSector k kept := by
      intro k
      rw [inSector, ← List.singleton_append, List.filter_append]
      rfl
    simpa [happend] using hrest

def sectorBound (hits : List (BlockHit α)) : Nat :=
  ((hits.map fun hit => hit.site.sector + 1).max?).getD 0

theorem sector_lt {hits : List (BlockHit α)} {hit : BlockHit α} (h : hit ∈ hits) :
    hit.site.sector < sectorBound hits := by
  have hmem : hit.site.sector + 1 ∈ hits.map fun hit => hit.site.sector + 1 :=
    List.mem_map.mpr ⟨hit, h, rfl⟩
  obtain ⟨m, hm⟩ := Option.isSome_iff_exists.mp (List.isSome_max?_of_mem hmem)
  rw [sectorBound, hm]
  exact (List.max?_le_iff hm).mp le_rfl _ hmem

theorem bySector_eq {hits kept : List (BlockHit α)} (h : ∀ hit ∈ kept, hit ∈ hits) :
    bySector hits kept = some ((List.range (sectorBound hits)).map fun k => inSector k kept) := by
  have hstart : Array.replicate (sectorBound hits) ([] : List (BlockHit α)) =
      ((List.range (sectorBound hits)).map fun _ => []).toArray := by
    simp
  have hrun := foldlM_bucket (fun _ => []) fun hit hh => sector_lt (h hit hh)
  rw [bySector, ← sectorBound, hstart, hrun]
  simp

theorem hitSectors_eq_filter {n : Nat} {hits : List (BlockHit α)}
    (hn : ∀ hit ∈ hits, hit.site.sector < n) :
    hitSectors hits = (List.range n).filter (· ∈ hitSectors hits) := by
  have hsorted : (hitSectors hits).Pairwise (· ≤ ·) := pairwise_mergeSort_key id _
  have hrange : ((List.range n).filter (· ∈ hitSectors hits)).Pairwise (· ≤ ·) :=
    List.pairwise_le_range.sublist List.filter_sublist
  apply List.Perm.eq_of_pairwise (fun _ _ _ _ => Nat.le_antisymm) hsorted hrange
  rw [List.perm_ext_iff_of_nodup (nodup_hitSectors hits) (List.nodup_range.filter _)]
  intro k
  rw [List.mem_filter, decide_eq_true_eq, List.mem_range, iff_and_self]
  intro hk
  obtain ⟨hit, hh, rfl⟩ := mem_hitSectors.mp hk
  exact hn hit hh

theorem zipIdx_map_range {β : Type} (n : Nat) (f : Nat → β) :
    ((List.range n).map f).zipIdx = (List.range n).map fun k => (f k, k) := by
  apply List.ext_getElem
  · simp
  · intro k _ _
    simp

/-- Empty buckets do not count. -/
theorem flatMap_range {β : Type} {n : Nat} {hits : List (BlockHit α)}
    (hn : ∀ hit ∈ hits, hit.site.sector < n) {f : Nat → List β}
    (hf : ∀ k, inSector k hits = [] → f k = []) :
    (List.range n).flatMap f = (hitSectors hits).flatMap f := by
  rw [hitSectors_eq_filter hn]
  generalize List.range n = ks
  induction ks with
  | nil => rfl
  | cons k ks ih =>
    by_cases hk : k ∈ hitSectors hits
    · simp [hk, ih]
    · have hempty : inSector k hits = [] := by
        rw [List.eq_nil_iff_forall_not_mem]
        intro hit hh
        exact hk (mem_hitSectors.mpr ⟨hit, mem_inSector.mp hh⟩)
      simp [hk, ih, hf k hempty]

end Sectors

section Groups

variable {α : Type}

def sectorGroups (corners : Bool) (hits : List (BlockHit α)) :
    Option (List (List (BlockHit α))) := do
  let groups ← connectedWithin Island.Chain.reaches (Island.Chain.touches corners)
    (Island.chains hits)
  some (groups.map fun members => members.flatMap (·.hits))

theorem sectorGroups_eq (corners : Bool) (hits : List (BlockHit α)) :
    sectorGroups corners hits = some (Island.sectorGroups corners hits) := by
  rw [sectorGroups, connectedWithin_eq]
  rfl

def numberedGroups (corners : Bool) (bucket : List (BlockHit α) × Nat) :
    Option (List (Nat × List (BlockHit α))) := do
  let groups ← sectorGroups corners bucket.1
  some (groups.map fun group => (bucket.2, group))

theorem numberedGroups_eq (corners : Bool) (bucket : List (BlockHit α) × Nat) :
    numberedGroups corners bucket =
      some ((Island.sectorGroups corners bucket.1).map fun group => (bucket.2, group)) := by
  rw [numberedGroups, sectorGroups_eq]
  rfl

variable [Scalar α]

def islandGroups (s : CaloSettings α) (hits : List (BlockHit α)) :
    Option (List (List (BlockHit α))) := do
  let buckets ← bySector hits (hits.filter fun hit => s.minBlockEnergy ≤ hit.energy)
  let groups ← buckets.zipIdx.mapM (numberedGroups s.corners)
  let glued ← connectedWithin (fun _ _ => true)
    (fun a b => a.1 != b.1 && touching s.corners a.2 b.2) groups.flatten
  some (glued.map fun members => members.flatMap (·.2))

theorem islandGroups_eq (s : CaloSettings α) (hits : List (BlockHit α)) :
    islandGroups s hits = some (Island.groups s hits) := by
  generalize hlive : (hits.filter fun hit => s.minBlockEnergy ≤ hit.energy) = live
  have hmem : ∀ hit ∈ live, hit ∈ hits := by
    rintro hit hh
    exact List.mem_of_mem_filter (hlive ▸ hh)
  have hempty : ∀ k, inSector k live = [] →
      ((Island.sectorGroups s.corners (inSector k live)).map fun group => (k, group)) = [] := by
    intro k hk
    rw [hk, Island.sectorGroups_nil, List.map_nil]
  have hflat := flatMap_range (fun hit hh => sector_lt (hmem hit hh)) hempty
  have hgroups := mapM_eq
    (l := ((List.range (sectorBound hits)).map fun k => inSector k live).zipIdx)
    fun bucket _ => numberedGroups_eq s.corners bucket
  rw [zipIdx_map_range, List.map_map] at hgroups
  simp only [islandGroups, hlive, bySector_eq hmem, Option.bind_eq_bind, Option.bind_some,
    zipIdx_map_range, hgroups, connectedWithin_eq]
  rw [Island.groups, hlive, Island.glue, connected, ← hflat, List.flatMap_def]
  rfl

end Groups

section Maxima

variable {α : Type} [Scalar α]

def isMaximum (s : CaloSettings α) (group : List (BlockHit α)) (i : Nat) : Option Bool := do
  let hit ← group[i]?
  some (Island.isMaximum s group hit i)

def localMaxima (s : CaloSettings α) (group : List (BlockHit α)) : Option (List Nat) :=
  keep (isMaximum s group) (List.range group.length)

def nearnessAt (group : List (BlockHit α)) (hit : BlockHit α) (x : Nat × Nat) :
    Option ((Nat × α) × Nat) := do
  let peak ← group[x.1]?
  some (hit.nearness peak, x.2)

def nearestMaximum (group : List (BlockHit α)) (maxima : List Nat) (hit : BlockHit α) :
    Option Nat := do
  let distances ← maxima.zipIdx.mapM (nearnessAt group hit)
  some (((firstLeast? (fun a b => nearer a.1 b.1) distances).map (·.2)).getD 0)

def islandSharing (p : Profile α) (group : List (BlockHit α)) (maxima : List Nat)
    (peaks : List (BlockHit α)) : Sharing α (BlockHit α) :=
  { items := group
    peaks
    energy := fun hit => some hit.energy
    position := fun hit => (hit.place.x, hit.place.y)
    fraction := fun hit => fractionAt p hit.place
    nearest := nearestMaximum group maxima
    inCore := fun peak hit => peak.distance hit < cornerAdjacent }

def shareAt (shares : Array (Array α)) (i k : Nat) : Option α := do
  let row ← shares[i]?
  row[k]?

theorem shareAt_eq {ι : Type} {items : List ι} {row : ι → Array α} {n : Nat}
    (hrow : ∀ item, (row item).size = n) {i : Nat} {item : ι} (hi : items[i]? = some item) {k : Nat}
    (hk : k < n) : shareAt (items.map row).toArray i k = some ((row item).getD k 0) := by
  have hsize := hrow item
  simp [shareAt, hi, hsize, hk]

def addShare (s : CaloSettings α) (shares : Array (Array α)) (m k : Nat) (c : BlockCluster α)
    (x : BlockHit α × Nat) : Option (BlockCluster α) :=
  if x.2 = m then some c
  else do
    let share ← shareAt shares x.2 k
    some (if share < s.leastSplit then c else c.add (Island.scaled x.1 share))

def sharedCluster (s : CaloSettings α) (group : List (BlockHit α)) (shares : Array (Array α))
    (x : Nat × Nat) : Option (BlockCluster α) := do
  let peak ← group[x.1]?
  let share ← shareAt shares x.1 x.2
  let c ← group.zipIdx.foldlM (addShare s shares x.1 x.2) (.single (Island.scaled peak share))
  some (c.setFlag .split)

def splitGroup (s : CaloSettings α) (p : Profile α) (group : List (BlockHit α)) :
    Option (List (BlockCluster α)) := do
  match ← localMaxima s group with
  | [] => some []
  | [_] => some [.ofHits group]
  | maxima =>
    let peaks ← maxima.mapM (group[·]?)
    let shares ← (islandSharing p group maxima peaks).shares s.splitIterations
    maxima.zipIdx.mapM (sharedCluster s group shares)

def islandClusters (s : CaloSettings α) (p : Profile α) (hits : List (BlockHit α)) :
    Option (List (BlockCluster α)) := do
  let groups ← islandGroups s hits
  let clusters ← groups.mapM (splitGroup s p)
  some clusters.flatten

theorem localMaxima_eq (s : CaloSettings α) (group : List (BlockHit α)) :
    localMaxima s group = some ((Island.localMaxima s group).map Prod.snd) := by
  have htest : ∀ i ∈ List.range group.length,
      isMaximum s group i = some ((isMaximum s group i).getD false) := by
    intro i hi
    have hread := List.getElem?_eq_getElem (List.mem_range.mp hi)
    rw [isMaximum, hread]
    rfl
  have hpositions : List.range group.length = group.zipIdx.map Prod.snd := by
    rw [List.zipIdx_map_snd, List.range_eq_range']
  rw [localMaxima, keep_eq htest, hpositions, List.filter_map, Island.localMaxima]
  congr 2
  apply List.filter_congr
  intro x hx
  rw [Function.comp_apply, isMaximum, List.mem_zipIdx_iff_getElem?.mp hx]
  rfl

def Positions (group : List (BlockHit α)) (maxima : List (BlockHit α × Nat)) : Prop :=
  ∀ m ∈ maxima, group[m.2]? = some m.1

theorem positions_localMaxima (s : CaloSettings α) (group : List (BlockHit α)) :
    Positions group (Island.localMaxima s group) := fun _ hm =>
  List.mem_zipIdx_iff_getElem?.mp (List.mem_of_mem_filter hm)

variable {group : List (BlockHit α)} {maxima : List (BlockHit α × Nat)}
  (hmaxima : Positions group maxima)

include hmaxima

theorem nearestMaximum_eq (hit : BlockHit α) :
    nearestMaximum group (maxima.map Prod.snd) hit = some (Island.nearestMaximum maxima hit) := by
  have hdistances : (maxima.map Prod.snd).zipIdx.mapM (nearnessAt group hit) =
      some (maxima.zipIdx.map fun x => (hit.nearness x.1.1, x.2)) := by
    rw [List.zipIdx_map, List.mapM_map]
    apply mapM_eq
    intro x hx
    have hpeak := hmaxima x.1 (List.fst_mem_of_mem_zipIdx hx)
    simp [nearnessAt, hpeak]
  rw [nearestMaximum, hdistances]
  rfl

theorem finds_islandSharing {p : Profile α} (hp : p.Full) (hne : maxima ≠ []) :
    (islandSharing p group (maxima.map Prod.snd) (maxima.map Prod.fst)).Finds
      (Island.sharing p group maxima) where
  items := rfl
  peaks := rfl
  position := rfl
  inCore := rfl
  itemEnergy _ _ := rfl
  peakEnergy _ _ := rfl
  fraction hit _ x y := fractionAt_eq hp hit.place x y
  nearest hit _ := by
    refine ⟨nearestMaximum_eq hmaxima hit, ?_⟩
    have hbound := firstLeast?_number_lt (fun a b => nearer a.1 b.1)
      (fun m : BlockHit α × Nat => hit.nearness m.1) hne
    rw [Island.sharing, List.length_map]
    exact hbound

theorem sharedCluster_eq (s : CaloSettings α) {row : BlockHit α → Array α}
    (hrow : ∀ hit, (row hit).size = maxima.length) {x : (BlockHit α × Nat) × Nat}
    (hx : x ∈ maxima.zipIdx) :
    sharedCluster s group (group.map row).toArray (x.1.2, x.2) =
      some (Island.sharedCluster s (group.map fun hit => (hit, row hit)) x.1 x.2) := by
  obtain ⟨⟨peak, m⟩, k⟩ := x
  have hk : k < maxima.length := (List.mem_zipIdx' hx).1
  have hpeak : group[m]? = some peak := hmaxima (peak, m) (List.fst_mem_of_mem_zipIdx hx)
  have hadd : ∀ (c : BlockCluster α), ∀ x ∈ group.zipIdx,
      addShare s (group.map row).toArray m k c x =
        some (if x.2 != m && !((row x.1).getD k 0 < s.leastSplit) then
          c.add (Island.scaled x.1 ((row x.1).getD k 0)) else c) := by
    intro c x hx
    rw [addShare, shareAt_eq hrow (List.mem_zipIdx_iff_getElem?.mp hx) hk]
    by_cases hm : x.2 = m
    · simp [hm]
    · simp [hm]
  have hfold := (foldlM_eq (P := fun _ => True) (fun c _ x hx => ⟨hadd c x hx, trivial⟩)
    (s := BlockCluster.single (Island.scaled peak ((row peak).getD k 0))) trivial).1
  simp only [sharedCluster, hpeak, shareAt_eq hrow hpeak hk, hfold, Option.bind_eq_bind,
    Option.bind_some, Island.sharedCluster, List.getElem?_map, Option.map_some, Option.getD_some,
    BlockCluster.addAll, List.zipIdx_map, List.filter_map, List.map_map, List.foldl_map,
    List.foldl_filter]
  rfl

end Maxima

section Clusters

variable {α : Type} [Scalar α]

theorem splitGroup_eq (s : CaloSettings α) {p : Profile α} (hp : p.Full)
    (group : List (BlockHit α)) : splitGroup s p group = some (Island.split s p group) := by
  have hmaxima := positions_localMaxima s group
  rw [splitGroup, localMaxima_eq, Island.split]
  rcases hlocal : Island.localMaxima s group with _ | ⟨m, _ | ⟨n, rest⟩⟩
  · rfl
  · rfl
  · rw [hlocal] at hmaxima
    have hpeaks : ((m :: n :: rest).map Prod.snd).mapM (group[·]?) =
        some ((m :: n :: rest).map Prod.fst) := by
      rw [List.mapM_map]
      exact mapM_eq hmaxima
    obtain ⟨centers, hcenters, hrows⟩ :=
      Sharing.exists_shares (Island.sharing p group (m :: n :: rest)) s.splitIterations
    have hshares := (finds_islandSharing hmaxima hp (List.cons_ne_nil m _)).shares_eq
      s.splitIterations
    have hsize : ∀ hit, ((Island.sharing p group (m :: n :: rest)).row centers hit).size =
        (m :: n :: rest).length := fun hit =>
      (Sharing.size_row hcenters hit).trans (by simp [Island.sharing])
    have hclusters := mapM_eq fun x hx => sharedCluster_eq hmaxima s hsize (x := x) hx
    have hnumbers : ((m :: n :: rest).map Prod.snd).zipIdx =
        (m :: n :: rest).zipIdx.map fun x => (x.1.2, x.2) := List.zipIdx_map
    rw [hrows, ShowerTrack.Sharing.rows, List.map_map] at hshares
    change (((m :: n :: rest).map Prod.snd).mapM (group[·]?)).bind _ = _
    rw [hpeaks, Option.bind_some]
    change ((islandSharing p group ((m :: n :: rest).map Prod.snd)
      ((m :: n :: rest).map Prod.fst)).shares s.splitIterations).bind _ = _
    rw [hshares, Option.bind_some]
    change ((m :: n :: rest).map Prod.snd).zipIdx.mapM _ = _
    rw [hnumbers, List.mapM_map]
    change _ = some ((m :: n :: rest).zipIdx.map _)
    rw [hrows]
    exact hclusters

theorem islandClusters_eq (s : CaloSettings α) {p : Profile α} (hp : p.Full)
    (hits : List (BlockHit α)) : islandClusters s p hits = some (Island.clusters s p hits) := by
  simp only [islandClusters, islandGroups_eq, Option.bind_eq_bind, Option.bind_some,
    mapM_eq fun group _ => splitGroup_eq s hp group]
  rfl

end Clusters

end ShowerTrack.Checked
