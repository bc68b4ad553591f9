import Mathlib
import ShowerTrack.Calorimeter.Island
import ShowerTrack.Proofs.Accounts
import ShowerTrack.Proofs.Flood
import ShowerTrack.Proofs.Interpolation
import ShowerTrack.Proofs.IslandGroups

/-!
# The energy of split clusters

The clusters of the calorimeter and those of a grid account for the energy in the same way, since
both share it by the same passes and cut off the same small shares.
-/

set_option autoImplicit false

namespace ShowerTrack

theorem foldl_pick_mem {κ : Type} (less : κ → κ → Bool) (keys : List κ) (key : κ) :
    (keys.foldl (fun best k => if less k best then k else best) key) ∈ key :: keys := by
  induction keys generalizing key with
  | nil => exact List.mem_cons_self
  | cons k keys ih =>
    rw [List.foldl_cons]
    have hpick := ih (if less k key then k else key)
    rcases List.mem_cons.mp hpick with hbest | hlater
    · rw [hbest]
      split
      · simp
      · simp
    · simp [hlater]

theorem firstLeast?_mem {κ : Type} (less : κ → κ → Bool) {keys : List κ} (h : keys ≠ []) :
    ∃ key ∈ keys, firstLeast? less keys = some key := by
  match keys, h with
  | k :: ks, _ => exact ⟨_, foldl_pick_mem less ks k, rfl⟩

/-- The least of numbered candidates has a number in range. -/
theorem firstLeast?_number_lt {β κ : Type} (less : κ × Nat → κ × Nat → Bool) (f : β → κ)
    {items : List β} (h : items ≠ []) :
    ((firstLeast? less (items.zipIdx.map fun (b, k) => (f b, k))).map (·.2)).getD 0 <
      items.length := by
  have hne : (items.zipIdx.map fun (b, k) => (f b, k)) ≠ [] := by
    simpa using h
  obtain ⟨key, hkey, hleast⟩ := firstLeast?_mem less hne
  obtain ⟨⟨b, k⟩, hb, rfl⟩ := List.mem_map.mp hkey
  rw [hleast, Option.map_some, Option.getD_some]
  exact (List.mem_zipIdx' hb).1

theorem Island.getElem?_of_mem_localMaxima {α : Type} [Scalar α] {s : CaloSettings α}
    {group : List (BlockHit α)} {m : BlockHit α × Nat} (hm : m ∈ Island.localMaxima s group) :
    group[m.2]? = some m.1 :=
  List.mem_zipIdx_iff_getElem?.mp (List.mem_of_mem_filter hm)

variable {α : Type} [Exact α]

def BlockHit.address (h : BlockHit α) : Nat × Cell := (h.site.sector, h.site.cell)

namespace Island

def pieces (cs : List (BlockCluster α)) : List ((Nat × Cell) × α) :=
  cs.flatMap fun c => c.hits.map fun h => (h.address, h.energy)

def groupSharing (s : CaloSettings α) (p : Profile α) (group : List (BlockHit α)) :
    Sharing α (BlockHit α) :=
  sharing p group (localMaxima s group)

theorem items_groupSharing (s : CaloSettings α) (p : Profile α) (group : List (BlockHit α)) :
    (groupSharing s p group).items = group := rfl

theorem sound_groupSharing (s : CaloSettings α) {p : Profile α} (hp : p.Nonneg)
    {group : List (BlockHit α)} (he : ∀ h ∈ group, 0 ≤ h.energy)
    (hpeaks : (groupSharing s p group).peaks ≠ []) : (groupSharing s p group).Sound where
  items := he
  peaks peak hpeak := by
    obtain ⟨m, hm, rfl⟩ := List.mem_map.mp hpeak
    exact he m.1 (List.mem_of_getElem? (getElem?_of_mem_localMaxima hm))
  fraction _ _ _ := Profile.fraction_nonneg hp _ _ _
  nearest hit := by
    have hmaxima : localMaxima s group ≠ [] := fun h => hpeaks (by
      rw [groupSharing, sharing, h]
      rfl)
    have hless := firstLeast?_number_lt (fun a b => nearer a.1 b.1)
      (fun m : BlockHit α × Nat => hit.nearness m.1) hmaxima
    rw [groupSharing, sharing, List.length_map]
    exact hless

theorem hits_sharedCluster (s : CaloSettings α) {group : List (BlockHit α)}
    (row : BlockHit α → Array α) {m : BlockHit α × Nat} (hm : group[m.2]? = some m.1) (k : Nat) :
    (sharedCluster s (group.map fun h => (h, row h)) m k).hits =
      scaled m.1 ((row m.1).getD k 0) ::
        ((group.zipIdx.filter fun x =>
            x.2 != m.2 && !((row x.1).getD k 0 < s.leastSplit)).map Prod.fst).map
          fun h => scaled h ((row h).getD k 0) := by
  have hshare : ((group.map fun h => (h, row h))[m.2]?.map fun r => r.2.getD k (0 : α)).getD 0 =
      (row m.1).getD k 0 := by
    rw [List.getElem?_map, hm]
    rfl
  simp only [sharedCluster, BlockCluster.setFlag, BlockCluster.hits_addAll,
    Exact.zero_eq, hshare, List.zipIdx_map, List.filter_map, List.map_map]
  rfl

theorem pieces_sharedCluster (s : CaloSettings α) (p : Profile α) {group : List (BlockHit α)}
    (hn : (group.map BlockHit.address).Nodup) {m : BlockHit α × Nat}
    (hm : m ∈ localMaxima s group) (n k : Nat) :
    (pieces [sharedCluster s ((groupSharing s p group).shares n) m k]).Perm
      ((groupSharing s p group).pieces BlockHit.address n s.leastSplit m.1 k) := by
  have hentry := getElem?_of_mem_localMaxima hm
  have hkept : (groupSharing s p group).pieces BlockHit.address n s.leastSplit m.1 k =
      (group.filter fun h => h.address = m.1.address ∨
        (!decide ((groupSharing s p group).share n h k < s.leastSplit)) = true).map fun h =>
          (h.address, h.energy * (groupSharing s p group).share n h k) := by
    rw [Sharing.pieces]
    congr 1
    apply List.filter_congr
    intro h _
    simp
  have hperm := filter_or_perm hn (List.mem_of_getElem? hentry)
    fun h => !decide ((groupSharing s p group).share n h k < s.leastSplit)
  rw [← map_fst_filter_zipIdx hn hentry] at hperm
  have hpieces := (hperm.map fun h =>
    (h.address, h.energy * (groupSharing s p group).share n h k)).symm
  rw [List.map_cons] at hpieces
  rw [pieces, List.flatMap_singleton, Sharing.shares_eq, items_groupSharing,
    hits_sharedCluster s _ hentry, hkept, List.map_cons, List.map_map]
  exact hpieces

theorem splitsInto_split (s : CaloSettings α) (p : Profile α) {group : List (BlockHit α)}
    (hn : (group.map BlockHit.address).Nodup) :
    SplitsInto (groupSharing s p group) BlockHit.address s.splitIterations s.leastSplit
      (pieces (split s p group)) := by
  have hpeaks : (groupSharing s p group).peaks = (localMaxima s group).map Prod.fst := rfl
  constructor
  · intro hnil
    have hmaxima : localMaxima s group = [] := List.map_eq_nil_iff.mp (hpeaks ▸ hnil)
    rw [split, hmaxima]
    rfl
  · intro hlength
    rw [hpeaks, List.length_map, List.length_eq_one_iff] at hlength
    obtain ⟨m, hmaxima⟩ := hlength
    rw [split, hmaxima]
    simp only [pieces, List.flatMap_singleton, BlockCluster.hits_ofHits]
    rfl
  · intro hlength
    rw [hpeaks, List.length_map] at hlength
    have hsplit : split s p group = (localMaxima s group).zipIdx.map fun x =>
        sharedCluster s ((groupSharing s p group).shares s.splitIterations) x.1 x.2 := by
      unfold split
      split
      · rename_i hmaxima
        simp [hmaxima] at hlength
      · rename_i hmaxima
        simp [hmaxima] at hlength
      · rfl
    rw [hsplit, hpeaks, List.zipIdx_map, List.flatMap_map, pieces, List.flatMap_map]
    apply List.Perm.flatMap_left
    intro x hx
    have hmem : x.1 ∈ localMaxima s group := List.fst_mem_of_mem_zipIdx hx
    have hpieces := pieces_sharedCluster s p hn hmem s.splitIterations x.2
    rw [pieces, List.flatMap_singleton] at hpieces
    exact hpieces

theorem groups_subperm (s : CaloSettings α) {hits : List (BlockHit α)}
    (hn : (hits.map BlockHit.address).Nodup) : (groups s hits).flatten.Subperm hits := by
  have hlive : ((hits.filter fun h => s.minBlockEnergy ≤ h.energy).map BlockHit.address).Nodup :=
    hn.sublist (List.filter_sublist.map _)
  exact (glue_components s.corners hlive).perm.subperm.trans List.filter_sublist.subperm

theorem accounts_clusters (s : CaloSettings α) {p : Profile α} (hp : p.Nonneg)
    {hits : List (BlockHit α)} (he : ∀ h ∈ hits, 0 ≤ h.energy)
    (hn : (hits.map BlockHit.address).Nodup) :
    Accounts BlockHit.address (fun h => h.energy) s.splitIterations s.leastSplit hits
      (groups s hits) (groupSharing s p) (pieces (clusters s p hits)) := by
  have hcover := groups_subperm s hn
  have hgroup : ∀ group ∈ groups s hits, group.Subperm hits := by
    intro group hg
    obtain ⟨front, back, hsplit⟩ := List.append_of_mem hg
    rw [hsplit, List.flatten_append, List.flatten_cons] at hcover
    have hsub : group.Sublist (front.flatten ++ (group ++ back.flatten)) :=
      (List.sublist_append_left group _).trans (List.sublist_append_right _ _)
    exact hsub.subperm.trans hcover
  have hpieces : pieces (clusters s p hits) =
      (groups s hits).flatMap fun group => pieces (split s p group) :=
    List.flatMap_assoc
  rw [hpieces]
  apply Accounts.of_split hn he
  · rw [List.flatMap_def, List.map_congr_left fun group _ => items_groupSharing s p group,
      List.map_id']
    exact hcover
  · intro group _
    rfl
  · intro group hg hpeaks
    exact sound_groupSharing s hp (fun h hh => he h ((hgroup group hg).subset hh)) hpeaks
  · intro group hg
    obtain ⟨part, hperm, hsub⟩ := hgroup group hg
    apply splitsInto_split
    exact (hperm.map _).nodup_iff.mp (hn.sublist (hsub.map _))

end Island

namespace Grid

def pieces (cs : List (GridCluster α)) : List (Cell × α) := cs.flatMap (·.cells)

def islandSharing (g : Grid α) (s : GridSettings α) (profile : α → α → α) (island : List Cell) :
    Sharing α Cell :=
  g.sharing profile island (island.filter (g.isPeak s))

theorem energy_nonneg {g : Grid α} (hg : ∀ v ∈ g.values, 0 ≤ v) (c : Cell) : 0 ≤ g.energy c := by
  rw [energy, Exact.zero_eq]
  exact Exact.getD_nonneg hg _

theorem sound_islandSharing {g : Grid α} (s : GridSettings α) {profile : α → α → α}
    (hg : ∀ v ∈ g.values, 0 ≤ v) (hprofile : ∀ dx dy, 0 ≤ profile dx dy) {island : List Cell}
    (hpeaks : (g.islandSharing s profile island).peaks ≠ []) :
    (g.islandSharing s profile island).Sound where
  items c _ := energy_nonneg hg c
  peaks c _ := energy_nonneg hg c
  fraction _ _ _ := hprofile _ _
  nearest c := by
    have hless := firstLeast?_number_lt (fun a b : Nat × Nat => a.1 < b.1)
      (fun peak : Cell => peak.chebyshev c) hpeaks
    exact hless

theorem cells_sharedCluster (g : Grid α) (s : GridSettings α) (profile : α → α → α)
    (island : List Cell) (peak : Cell) (n k : Nat) :
    (g.sharedCluster s ((g.islandSharing s profile island).shares n) peak k).cells =
      (g.islandSharing s profile island).pieces id n s.leastSplit peak k := by
  have hkept : ((g.islandSharing s profile island).items.filter fun c =>
      id c = id peak ∨ s.leastSplit ≤ (g.islandSharing s profile island).share n c k) =
        island.filter fun c =>
          c == peak || decide (s.leastSplit ≤ (g.islandSharing s profile island).share n c k) := by
    apply List.filter_congr
    intro c _
    rw [Bool.eq_iff_iff]
    simp
  rw [Sharing.shares_eq, Sharing.pieces, hkept]
  simp only [sharedCluster, cluster, List.filter_map, List.map_map, Exact.zero_eq]
  rfl

theorem splitsInto_split (g : Grid α) (s : GridSettings α) (profile : α → α → α)
    (island : List Cell) :
    SplitsInto (g.islandSharing s profile island) id s.splitIterations s.leastSplit
      (pieces (g.split s profile island)) := by
  have hpeaks : (g.islandSharing s profile island).peaks = island.filter (g.isPeak s) := rfl
  constructor
  · intro hnil
    rw [hpeaks] at hnil
    rw [split, hnil]
    rfl
  · intro hlength
    rw [hpeaks, List.length_eq_one_iff] at hlength
    obtain ⟨peak, hone⟩ := hlength
    rw [split, hone, pieces, List.flatMap_singleton]
    rfl
  · intro hlength
    rw [hpeaks] at hlength
    have hsplit : g.split s profile island = (island.filter (g.isPeak s)).zipIdx.map fun x =>
        g.sharedCluster s ((g.islandSharing s profile island).shares s.splitIterations)
          x.1 x.2 := by
      unfold split
      split
      · rename_i hnil
        simp [hnil] at hlength
      · rename_i hone
        simp [hone] at hlength
      · rfl
    rw [hsplit, hpeaks, pieces, List.flatMap_map]
    simp only [cells_sharedCluster]
    exact .refl _

theorem accounts_clusters {g : Grid α} (s : GridSettings α) {profile : α → α → α}
    (hg : ∀ v ∈ g.values, 0 ≤ v) (hprofile : ∀ dx dy, 0 ≤ profile dx dy) :
    Accounts id g.energy s.splitIterations s.leastSplit g.cells (g.islands s)
      (g.islandSharing s profile) (pieces (g.clusters s profile)) := by
  have hpieces : pieces (g.clusters s profile) =
      (g.islands s).flatMap fun island => pieces (g.split s profile island) :=
    List.flatMap_assoc
  rw [hpieces]
  apply Accounts.of_split
  · rw [List.map_id]
    exact nodup_cellsOf _ _
  · intro c _
    exact energy_nonneg hg c
  · rw [List.flatMap_def]
    have hitems : (g.islands s).map (fun island => (g.islandSharing s profile island).items) =
        g.islands s := List.map_id _
    rw [hitems]
    exact (g.flatten_islands_perm s).subperm.trans List.filter_sublist.subperm
  · intro island _
    rfl
  · intro island _ hpeaks
    exact sound_islandSharing s hg hprofile hpeaks
  · intro island _
    exact g.splitsInto_split s profile island

end Grid

/-- In exact arithmetic no block and no cell gives its clusters more than it has, and what they
do not get of it are the small shares that were cut off. -/
theorem clusters_account_for_energy :
    (∀ (s : CaloSettings α) (p : Profile α) (hits : List (BlockHit α)), p.Nonneg →
      (∀ h ∈ hits, 0 ≤ h.energy) → (hits.map BlockHit.address).Nodup →
        Accounts BlockHit.address (fun h => h.energy) s.splitIterations s.leastSplit hits
          (Island.groups s hits) (Island.groupSharing s p)
          (Island.pieces (Island.clusters s p hits))) ∧
      ∀ (g : Grid α) (s : GridSettings α) (profile : α → α → α), (∀ v ∈ g.values, 0 ≤ v) →
        (∀ dx dy, 0 ≤ profile dx dy) →
          Accounts id g.energy s.splitIterations s.leastSplit g.cells (g.islands s)
            (g.islandSharing s profile) (Grid.pieces (g.clusters s profile)) := by
  constructor
  · intro s p hits hp he hn
    exact Island.accounts_clusters s hp he hn
  · intro g s profile hg hprofile
    exact Grid.accounts_clusters s hg hprofile

theorem three_crystals_account_for_energy :
    let p : Profile ℝ := ⟨#[1], #[1]⟩
    let hits : List (BlockHit ℝ) :=
      [⟨1, ⟨.crystal, 20, 20, 0, 0, 0⟩, ⟨.empty, 0, 0, 0⟩, 90⟩,
        ⟨2, ⟨.crystal, 20, 20, 20, 0, 0⟩, ⟨.empty, 0, 0, 1⟩, 10⟩,
        ⟨3, ⟨.crystal, 20, 20, 40, 0, 0⟩, ⟨.empty, 0, 0, 2⟩, 70⟩]
    let g : Grid ℝ := ⟨1, 3, #[90, 10, 70]⟩
    let s : GridSettings ℝ := ⟨1, 10, false, 6, 0.01⟩
    Accounts BlockHit.address (fun h => h.energy) 6 (0.01 : ℝ) hits
        (Island.groups .standard hits) (Island.groupSharing .standard p)
        (Island.pieces (Island.clusters .standard p hits)) ∧
      Accounts id g.energy 6 0.01 g.cells (g.islands s) (g.islandSharing s fun _ _ => 1)
        (Grid.pieces (g.clusters s fun _ _ => 1)) := by
  intro p hits g s
  have hp : p.Nonneg := ⟨by simp [p], by simp [p]⟩
  have he : ∀ h ∈ hits, 0 ≤ h.energy := by
    simp [hits]
  have hn : (hits.map BlockHit.address).Nodup := by
    decide
  have hg : ∀ v ∈ g.values, 0 ≤ v := by
    simp [g]
  constructor
  · exact clusters_account_for_energy.1 .standard p hits hp he hn
  · exact clusters_account_for_energy.2 g s (fun _ _ => 1) hg fun _ _ => zero_le_one

end ShowerTrack
