import ShowerTrack.Calorimeter.Shape
import ShowerTrack.Proofs.Drawn
import ShowerTrack.Proofs.SplitEnergy

/-!
# Centers

A part of a split group begins with the maximum that it was built for, and that stays its center as
long as no other hit has more energy in the part. A hit between two maxima can have more than both,
and then their parts have one center.
-/

set_option autoImplicit false

namespace ShowerTrack

variable {α : Type} [Scalar α]

namespace BlockCluster

def Overshadowed (c : BlockCluster α) : Prop :=
  ∃ first ∈ c.hits.head?, ∃ h ∈ c.hits, first.energy < h.energy

/-- A cluster keeps its center unless one of the hits that are added is stronger, and then no hit
is stronger than the new one. -/
theorem center_addAll [Scalar.Ordered α] {c : BlockCluster α} (hc : c.isEmpty = false)
    (hs : List (BlockHit α)) :
    ((c.addAll hs).center = c.center ∨
      ((c.addAll hs).center ∈ hs ∧ c.center.energy < (c.addAll hs).center.energy)) ∧
    ∀ h ∈ hs, ¬ (c.addAll hs).center.energy < h.energy := by
  induction hs generalizing c with
  | nil => exact ⟨.inl rfl, by simp⟩
  | cons h hs ih =>
    have hadd : (c.add h).isEmpty = false := by simp [isEmpty, add]
    have hfold : c.addAll (h :: hs) = (c.add h).addAll hs := rfl
    have hcenter : (c.add h).center = if c.center.energy < h.energy then h else c.center := by
      simp [add, newCenter, hc]
    obtain ⟨horigin, hrest⟩ := ih hadd
    rw [hfold, List.forall_mem_cons]
    -- the center that the rest starts from is the new hit or the old center
    by_cases hstronger : c.center.energy < h.energy
    · rw [hcenter, if_pos hstronger] at horigin
      rcases horigin with hkeeps | ⟨hmem, hlater⟩
      · rw [hkeeps] at hrest ⊢
        exact ⟨.inr ⟨List.mem_cons_self, hstronger⟩, Scalar.Ordered.lt_irrefl _, hrest⟩
      · exact ⟨.inr ⟨List.mem_cons_of_mem h hmem, Scalar.Ordered.lt_trans hstronger hlater⟩,
          Scalar.Ordered.lt_asymm hlater, hrest⟩
    · rw [hcenter, if_neg hstronger] at horigin
      rcases horigin with hkeeps | ⟨hmem, hlater⟩
      · rw [hkeeps] at hrest ⊢
        exact ⟨.inl rfl, hstronger, hrest⟩
      · exact ⟨.inr ⟨List.mem_cons_of_mem h hmem, hlater⟩,
          fun hlt => hstronger (Scalar.Ordered.lt_trans hlater hlt), hrest⟩

theorem hits_single_addAll (first : BlockHit α) (hs : List (BlockHit α)) :
    ((single first).addAll hs).hits = first :: hs :=
  hits_addAll (single first) hs

/-- The center is a strongest hit, and it is the first one just when that is not overshadowed. -/
theorem center_single_addAll [Scalar.Ordered α] (first : BlockHit α) (hs : List (BlockHit α)) :
    (∀ h ∈ ((single first).addAll hs).hits,
      ¬ ((single first).addAll hs).center.energy < h.energy) ∧
    (¬ ((single first).addAll hs).Overshadowed → ((single first).addAll hs).center = first) ∧
    (((single first).addAll hs).Overshadowed → ((single first).addAll hs).center ∈ hs) := by
  have hshadow : ((single first).addAll hs).Overshadowed ↔
      ∃ h ∈ first :: hs, first.energy < h.energy := by
    rw [Overshadowed, hits_single_addAll, List.head?_cons]
    simp
  have hfirst : (single first).center = first := rfl
  obtain ⟨horigin, hstrongest⟩ := center_addAll (c := single first) rfl hs
  rw [hshadow, hits_single_addAll, List.forall_mem_cons]
  rw [hfirst] at horigin
  rcases horigin with hkeeps | ⟨hmem, hstronger⟩
  · rw [hkeeps] at hstrongest ⊢
    refine ⟨⟨Scalar.Ordered.lt_irrefl _, hstrongest⟩, fun _ => rfl, ?_⟩
    rintro ⟨h, hh, hlt⟩
    rcases List.mem_cons.mp hh with rfl | hrest
    · exact absurd hlt (Scalar.Ordered.lt_irrefl _)
    · exact absurd hlt (hstrongest h hrest)
  · refine ⟨⟨Scalar.Ordered.lt_asymm hstronger, hstrongest⟩, ?_, fun _ => hmem⟩
    intro hnone
    exact absurd ⟨_, List.mem_cons_of_mem first hmem, hstronger⟩ hnone

end BlockCluster

namespace Island

/-- The cluster begins with maximum number `k`, with the energy that it keeps by the shares. -/
def BeginsWith (rows : List (BlockHit α × Array α)) (m : BlockHit α × Nat) (k : Nat)
    (c : BlockCluster α) : Prop :=
  ∃ row share, rows[m.2]? = some (m.1, row) ∧ row[k]? = some share ∧
    c.hits.head? = some (scaled m.1 share)

/-- The part that maximum number `k` gets of its group: it begins with the maximum, which is the
center unless another hit has more energy in the part; the center has the most. -/
structure BuiltFor (rows : List (BlockHit α × Array α)) (m : BlockHit α × Nat) (k : Nat)
    (c : BlockCluster α) : Prop where
  begins : BeginsWith rows m k c
  kept : ¬ c.Overshadowed → c.hits.head? = some c.center
  moved : c.Overshadowed → c.center.address ≠ m.1.address
  strongest : ∀ h ∈ c.hits, ¬ c.center.energy < h.energy
  flagged : c.flags.test .split = true

theorem BuiltFor.center_address {rows : List (BlockHit α × Array α)} {m : BlockHit α × Nat}
    {k : Nat} {c : BlockCluster α} (h : BuiltFor rows m k c) (hc : ¬ c.Overshadowed) :
    c.center.address = m.1.address := by
  obtain ⟨_, _, _, _, hhead⟩ := h.begins
  rw [Option.some.inj ((h.kept hc).symm.trans hhead)]
  rfl

section Shared

variable {s : CaloSettings α} {group : List (BlockHit α)} {rows : List (BlockHit α × Array α)}
  {m : BlockHit α × Nat} {k : Nat}

/-- A part begins with its maximum, which has a share in itself. The hits behind it are other hits
of the group. -/
theorem exists_sharedCluster (hrows : rows.map (·.1) = group) (hm : group[m.2]? = some m.1)
    (hk : ∀ r ∈ rows, k < r.2.size) : ∃ row share others,
      rows[m.2]? = some (m.1, row) ∧ row[k]? = some share ∧
      sharedCluster s rows m k =
        ((BlockCluster.single (scaled m.1 share)).addAll others).setFlag .split ∧
      ∀ h ∈ others, ∃ i ≠ m.2, ∃ g, group[i]? = some g ∧ ∃ energy, h = { g with energy } := by
  have hentry := hm
  rw [← hrows, List.getElem?_map] at hentry
  obtain ⟨⟨hit, row⟩, hrow, rfl⟩ := Option.map_eq_some_iff.mp hentry
  obtain ⟨share, hshare⟩ : ∃ share, row[k]? = some share :=
    ⟨_, Array.getElem?_eq_getElem (hk _ (List.mem_of_getElem? hrow))⟩
  have hown : (rows[m.2]?.map fun r => r.2.getD k 0).getD 0 = share := by
    rw [hrow, Option.map_some, Option.getD_some, Array.getD_eq_getD_getElem?, hshare,
      Option.getD_some]
  refine ⟨row, share, _, hrow, hshare, by rw [← hown]; rfl, ?_⟩
  intro h hh
  obtain ⟨⟨row, i⟩, hrow, rfl⟩ := List.mem_map.mp hh
  obtain ⟨hrow, hkept⟩ := List.mem_filter.mp hrow
  rw [Bool.and_eq_true, bne_iff_ne] at hkept
  refine ⟨i, hkept.1, row.1, ?_, _, rfl⟩
  rw [← hrows, List.getElem?_map, List.mem_zipIdx_iff_getElem?.mp hrow]
  rfl

variable [Scalar.Ordered α]

theorem builtFor_sharedCluster (hn : (group.map BlockHit.address).Nodup)
    (hrows : rows.map (·.1) = group) (hm : group[m.2]? = some m.1)
    (hk : ∀ r ∈ rows, k < r.2.size) : BuiltFor rows m k (sharedCluster s rows m k) := by
  obtain ⟨row, share, others, hrow, hshare, hcluster, hothers⟩ :=
    exists_sharedCluster (s := s) hrows hm hk
  obtain ⟨hstrongest, hkeeps, hmoves⟩ :=
    BlockCluster.center_single_addAll (scaled m.1 share) others
  have hhead : ((BlockCluster.single (scaled m.1 share)).addAll others).hits.head? =
      some (scaled m.1 share) := by
    rw [BlockCluster.hits_single_addAll, List.head?_cons]
  rw [hcluster]
  refine ⟨⟨row, share, hrow, hshare, hhead⟩, ?_, ?_, hstrongest, ?_⟩
  · intro hnone
    exact hhead.trans (congrArg some (hkeeps hnone).symm)
  · intro hshadow
    obtain ⟨i, hi, g, hg, energy, hcenter⟩ := hothers _ (hmoves hshadow)
    have hcenter' : (((BlockCluster.single (scaled m.1 share)).addAll others).setFlag
        .split).center.address = g.address := by
      rw [BlockCluster.setFlag, hcenter]
      rfl
    rw [hcenter']
    exact fun haddress => hi ((position_eq_iff hn hg hm).mpr haddress)
  · rw [BlockCluster.setFlag, Flags.test_set]
    simp

end Shared

/-- The blocks of a group that was hit in different cells are in different cells, and those of
two groups are. -/
theorem nodup_groups (s : CaloSettings α) {hits : List (BlockHit α)}
    (hn : (hits.map BlockHit.address).Nodup) :
    (∀ group ∈ groups s hits, (group.map BlockHit.address).Nodup) ∧
      (groups s hits).Pairwise fun group other =>
        List.Disjoint (group.map BlockHit.address) (other.map BlockHit.address) := by
  have hflat : ((groups s hits).map (List.map BlockHit.address)).flatten.Nodup := by
    rw [← List.map_flatten, ((flatten_groups_perm s hits).map _).nodup_iff]
    exact hn.sublist (List.filter_sublist.map _)
  obtain ⟨hgroups, hdisjoint⟩ := List.nodup_flatten.mp hflat
  exact ⟨fun group hg => hgroups _ (List.mem_map_of_mem hg), List.pairwise_map.mp hdisjoint⟩

/-- What holds of a maximum and its part, for every one of several maxima. -/
theorem forall₂_split {s : CaloSettings α} (p : Profile α) {group : List (BlockHit α)}
    (hmany : 2 ≤ (localMaxima s group).length)
    {r : (BlockHit α × Nat) × Nat → BlockCluster α → Prop}
    (h : ∀ x ∈ (localMaxima s group).zipIdx, r x (sharedCluster s
      ((sharing p group (localMaxima s group)).shares s.splitIterations) x.1 x.2)) :
    List.Forall₂ r (localMaxima s group).zipIdx (split s p group) := by
  rcases split_cases s p group with ⟨hnil, _⟩ | ⟨hone, _⟩ | ⟨_, hsplit⟩
  · rw [hnil] at hmany
    cases hmany
  · omega
  · rw [hsplit]
    rwa [List.forall₂_map_right_iff, List.forall₂_same]

/-- Every item has a share in each maximum. -/
theorem lt_size_of_mem_shares (p : Profile α) {s : CaloSettings α} {group : List (BlockHit α)}
    {x : (BlockHit α × Nat) × Nat} (hx : x ∈ (localMaxima s group).zipIdx) :
    ∀ r ∈ (sharing p group (localMaxima s group)).shares s.splitIterations, x.2 < r.2.size := by
  intro r hr
  have hpeaks : (sharing p group (localMaxima s group)).peaks.length =
      (localMaxima s group).length := List.length_map _
  rw [Sharing.size_of_mem_shares hr, hpeaks]
  exact (List.mem_zipIdx' hx).1

/-- What the part of a maximum consists of. -/
theorem exists_part (p : Profile α) {s : CaloSettings α} {group : List (BlockHit α)}
    {x : (BlockHit α × Nat) × Nat} (hx : x ∈ (localMaxima s group).zipIdx) :
    ∃ row share others,
      ((sharing p group (localMaxima s group)).shares s.splitIterations)[x.1.2]? =
        some (x.1.1, row) ∧ row[x.2]? = some share ∧
      sharedCluster s ((sharing p group (localMaxima s group)).shares s.splitIterations) x.1 x.2 =
        ((BlockCluster.single (scaled x.1.1 share)).addAll others).setFlag .split ∧
      ∀ h ∈ others, ∃ i ≠ x.1.2, ∃ g, group[i]? = some g ∧ ∃ energy, h = { g with energy } :=
  exists_sharedCluster (map_fst_shares s p group)
    (getElem?_of_mem_localMaxima (List.fst_mem_of_mem_zipIdx hx)) (lt_size_of_mem_shares p hx)

/-- Two parts of a split group, of which one at least is not centered on its maximum. -/
structure Twins (s : CaloSettings α) (p : Profile α) (group : List (BlockHit α))
    (c d : BlockCluster α) : Prop where
  several : 2 ≤ (localMaxima s group).length
  parts : c ∈ split s p group ∧ d ∈ split s p group
  overshadowed : c.Overshadowed ∨ d.Overshadowed

variable [Scalar.Ordered α] {s : CaloSettings α} {p : Profile α} {hits group : List (BlockHit α)}

theorem builtFor_part (p : Profile α) (hn : (group.map BlockHit.address).Nodup)
    {x : (BlockHit α × Nat) × Nat} (hx : x ∈ (localMaxima s group).zipIdx) :
    BuiltFor ((sharing p group (localMaxima s group)).shares s.splitIterations) x.1 x.2
      (sharedCluster s ((sharing p group (localMaxima s group)).shares s.splitIterations)
        x.1 x.2) :=
  builtFor_sharedCluster hn (map_fst_shares s p group)
    (getElem?_of_mem_localMaxima (List.fst_mem_of_mem_zipIdx hx)) (lt_size_of_mem_shares p hx)

/-- Every maximum of a group that is split gets its part. -/
theorem builtFor_split (p : Profile α) (hn : (group.map BlockHit.address).Nodup)
    (hmany : 2 ≤ (localMaxima s group).length) :
    List.Forall₂ (fun x c => BuiltFor
      ((sharing p group (localMaxima s group)).shares s.splitIterations) x.1 x.2 c)
        (localMaxima s group).zipIdx (split s p group) :=
  forall₂_split p hmany fun _ hx => builtFor_part p hn hx

/-- The center of a cluster is one of the blocks of its group. -/
theorem center_of_mem_split {c : BlockCluster α} (hc : c ∈ split s p group) :
    ∃ g ∈ group, c.center.id = g.id ∧ c.center.address = g.address := by
  rcases split_cases s p group with ⟨_, hsplit⟩ | ⟨hone, hsplit⟩ | ⟨_, hsplit⟩
  · rw [hsplit] at hc
    cases hc
  · rw [hsplit, List.mem_singleton] at hc
    have hne : group ≠ [] := by
      rintro rfl
      cases hone
    exact ⟨c.center, hc ▸ (BlockCluster.firstHighest_ofHits hne).mem, rfl, rfl⟩
  · rw [hsplit] at hc
    obtain ⟨x, hx, rfl⟩ := List.mem_map.mp hc
    have hm := getElem?_of_mem_localMaxima (List.fst_mem_of_mem_zipIdx hx)
    obtain ⟨_, share, others, _, _, hcluster, hothers⟩ := exists_part p hx
    rw [hcluster, BlockCluster.setFlag]
    rcases (BlockCluster.center_addAll (c := .single (scaled x.1.1 share)) rfl others).1 with
      hkeeps | ⟨hmem, _⟩
    · rw [hkeeps]
      exact ⟨x.1.1, List.mem_of_getElem? hm, rfl, rfl⟩
    · obtain ⟨_, _, g, hg, energy, hother⟩ := hothers _ hmem
      rw [hother]
      exact ⟨g, List.mem_of_getElem? hg, rfl, rfl⟩

theorem pairwise_split (s : CaloSettings α) (p : Profile α)
    (hn : (group.map BlockHit.address).Nodup) :
    (split s p group).Pairwise fun c d =>
      c.center.address = d.center.address → Twins s p group c d := by
  rcases split_cases s p group with ⟨_, hsplit⟩ | ⟨_, hsplit⟩ | ⟨hmany, hsplit⟩
  · rw [hsplit]
    exact .nil
  · rw [hsplit]
    exact List.pairwise_singleton _ _
  · have hcells : (group.zipIdx.map Prod.fst).Pairwise fun a b => a.address ≠ b.address := by
      rw [List.zipIdx_map_fst]
      exact List.pairwise_map.mp (List.nodup_iff_pairwise_ne.mp hn)
    have hmaxima : ((localMaxima s group).zipIdx.map Prod.fst).Pairwise fun m n =>
        m.1.address ≠ n.1.address := by
      rw [List.zipIdx_map_fst]
      exact (List.pairwise_map.mp hcells).filter _
    apply List.Pairwise.imp_of_mem (R := fun c d => c.center.address = d.center.address →
      c.Overshadowed ∨ d.Overshadowed) fun hc hd h hsame => ⟨hmany, ⟨hc, hd⟩, h hsame⟩
    rw [hsplit, List.pairwise_map]
    apply (List.pairwise_map.mp hmaxima).imp_of_mem
    intro x y hx hy hxy hsame
    by_contra hneither
    rw [not_or] at hneither
    rw [(builtFor_part p hn hx).center_address hneither.1,
      (builtFor_part p hn hy).center_address hneither.2] at hsame
    exact hxy hsame

/-- Clusters with one center are parts of one group. -/
theorem pairwise_clusters (s : CaloSettings α) (p : Profile α)
    (hn : (hits.map BlockHit.address).Nodup) :
    (clusters s p hits).Pairwise fun c d => c.center.address = d.center.address →
      ∃ group ∈ groups s hits, Twins s p group c d := by
  obtain ⟨hgroups, hdisjoint⟩ := nodup_groups s hn
  rw [clusters, List.pairwise_flatMap]
  constructor
  · intro group hg
    exact (pairwise_split s p (hgroups group hg)).imp fun h hsame => ⟨group, hg, h hsame⟩
  · apply hdisjoint.imp
    intro group other hapart c hc d hd hsame
    obtain ⟨g, hg, _, hccenter⟩ := center_of_mem_split hc
    obtain ⟨k, hk, _, hdcenter⟩ := center_of_mem_split hd
    rw [hccenter, hdcenter] at hsame
    exact absurd (List.mem_map_of_mem hk) (hapart (hsame ▸ List.mem_map_of_mem hg))

/-- In every group with several maxima each of them gets a part, whose center it is just when no
other hit has more energy in the part. Clusters with one center are parts of one group, of which
one at least is not centered on its maximum. -/
theorem split_centers (s : CaloSettings α) (p : Profile α)
    (hn : (hits.map BlockHit.address).Nodup) :
    (∀ group ∈ groups s hits, 2 ≤ (localMaxima s group).length →
      List.Forall₂ (fun x c => BuiltFor
        ((sharing p group (localMaxima s group)).shares s.splitIterations) x.1 x.2 c)
          (localMaxima s group).zipIdx (split s p group)) ∧
    (clusters s p hits).Pairwise (fun c d => c.center.address = d.center.address →
      ∃ group ∈ groups s hits, Twins s p group c d) ∧
    ((hits.map (·.id)).Nodup → ∀ c ∈ clusters s p hits, ∀ d ∈ clusters s p hits,
      c.center.id = d.center.id → c.center.address = d.center.address) := by
  have hcenter : ∀ c ∈ clusters s p hits, ∃ g ∈ hits,
      c.center.id = g.id ∧ c.center.address = g.address := by
    intro c hc
    obtain ⟨group, hg, hc⟩ := List.mem_flatMap.mp hc
    obtain ⟨g, hgmem, hblock⟩ := center_of_mem_split hc
    exact ⟨g, List.mem_of_mem_filter
      ((flatten_groups_perm s hits).subset (List.mem_flatten.mpr ⟨group, hg, hgmem⟩)), hblock⟩
  refine ⟨fun group hg => builtFor_split p ((nodup_groups s hn).1 group hg),
    pairwise_clusters s p hn, ?_⟩
  intro hids c hc d hd hsame
  obtain ⟨g, hg, hcid, hcaddress⟩ := hcenter c hc
  obtain ⟨k, hk, hdid, hdaddress⟩ := hcenter d hd
  rw [hcid, hdid] at hsame
  rw [hcaddress, hdaddress, List.inj_on_of_nodup_map hids hg hk hsame]

end Island

theorem border_split_centers :
    (Primex.border.map BlockHit.address).Nodup ∧
      (Island.clusters .standard .standard Primex.border).Pairwise fun c d =>
        c.center.address = d.center.address →
          ∃ group ∈ Island.groups .standard Primex.border,
            Island.Twins .standard .standard group c d := by
  have hn : (Primex.border.map BlockHit.address).Nodup := by decide
  exact ⟨hn, (Island.split_centers .standard .standard hn).2.1⟩

namespace SinglePrecision

open Float.Model (UnpackedFloat)

def undefined : Float32 := 0 / 0

theorem unpack_undefined : undefined.toModel.unpack = .notANumber := rfl

theorem ofModel_notANumber :
    Float32.ofModel (Float32.Model.pack .notANumber) = undefined := by decide +kernel

theorem undefined_mul (a : Float32) : undefined * a = undefined := by
  have hmul : undefined * a = Float32.ofModel (Float32.Model.pack
      (UnpackedFloat.mul .binary32 undefined.toModel.unpack a.toModel.unpack)) := rfl
  rw [hmul, unpack_undefined]
  exact ofModel_notANumber

theorem mul_undefined (a : Float32) : a * undefined = undefined := by
  have hmul : a * undefined = Float32.ofModel (Float32.Model.pack
      (UnpackedFloat.mul .binary32 a.toModel.unpack undefined.toModel.unpack)) := rfl
  rw [hmul, unpack_undefined]
  cases a.toModel.unpack <;> exact ofModel_notANumber

theorem undefined_add (a : Float32) : undefined + a = undefined := by
  have hadd : undefined + a = Float32.ofModel (Float32.Model.pack
      (UnpackedFloat.add .binary32 undefined.toModel.unpack a.toModel.unpack)) := rfl
  rw [hadd, unpack_undefined]
  exact ofModel_notANumber

theorem undefined_sub (a : Float32) : undefined - a = undefined := by
  have hsub : undefined - a = Float32.ofModel (Float32.Model.pack
      (UnpackedFloat.sub .binary32 undefined.toModel.unpack a.toModel.unpack)) := rfl
  rw [hsub, unpack_undefined]
  exact ofModel_notANumber

end SinglePrecision

namespace Profile

open SinglePrecision (undefined)

/-- The entries of a profile do not count at an offset out of range, or one undefined across. -/
def Unread (dx dy : Float32) : Prop :=
  range ≤ Scalar.abs dx ∨ range ≤ Scalar.abs dy ∨ Scalar.abs dy = undefined

instance (dx dy : Float32) : Decidable (Unread dx dy) :=
  inferInstanceAs (Decidable (_ ∨ _ ∨ _))

theorem interpolate_undefined (tx v00 v10 v01 v11 : Float32) :
    interpolate tx undefined v00 v10 v01 v11 = undefined := by
  have hone : (1 : Float32) - undefined = undefined := by decide +kernel
  simp only [interpolate, hone, SinglePrecision.mul_undefined, SinglePrecision.undefined_mul,
    SinglePrecision.undefined_add]

theorem fraction_unread (p q : Profile Float32) (kind : BlockKind) {dx dy : Float32}
    (h : Unread dx dy) : p.fraction kind dx dy = q.fraction kind dx dy := by
  by_cases hfar : range ≤ Scalar.abs dx ∨ range ≤ Scalar.abs dy
  · simp only [fraction, if_pos hfar]
  · have hundefined : Scalar.abs dy = undefined := by
      rcases h with hx | hy | hundefined
      · exact absurd (.inl hx) hfar
      · exact absurd (.inr hy) hfar
      · exact hundefined
    have hcell : undefined / step = undefined := by decide +kernel
    simp only [fraction, hundefined, hcell, SinglePrecision.undefined_sub, interpolate_undefined]

end Profile

namespace Island

/-- With one pass a profile counts only at the places of the maxima. -/
theorem split_congr {s : CaloSettings α} (hpasses : s.splitIterations ≤ 1) {p q : Profile α}
    {group : List (BlockHit α)} (h : ∀ hit ∈ group, ∀ m ∈ localMaxima s group,
      p.fractionAt hit.place m.1.place.x m.1.place.y =
        q.fractionAt hit.place m.1.place.x m.1.place.y) : split s p group = split s q group := by
  have hrow : ∀ hit ∈ group,
      (sharing p group (localMaxima s group)).row
        (sharing p group (localMaxima s group)).start hit =
          (sharing q group (localMaxima s group)).row
            (sharing q group (localMaxima s group)).start hit := by
    intro hit hh
    have hweights : ((sharing p group (localMaxima s group)).start.map fun c =>
        c.energy * (sharing p group (localMaxima s group)).fraction hit c.x c.y) =
          (sharing q group (localMaxima s group)).start.map fun c =>
            c.energy * (sharing q group (localMaxima s group)).fraction hit c.x c.y := by
      simp only [Sharing.start, sharing, List.map_map]
      apply List.map_congr_left
      intro m hm
      simp only [Function.comp_apply, h hit hh m hm]
    rw [Sharing.row, Sharing.row, hweights]
    rfl
  have hshares : (sharing p group (localMaxima s group)).shares s.splitIterations =
      (sharing q group (localMaxima s group)).shares s.splitIterations := by
    rw [Sharing.shares, Sharing.shares, Nat.sub_eq_zero_of_le hpasses]
    exact List.map_congr_left fun hit hh => congrArg (Prod.mk hit) (hrow hit hh)
  rw [split, split]
  split
  · rfl
  · rfl
  · rw [hshares]

/-- Four blocks in a column. The outer ones are maxima; they have no height, which leaves their own
fractions undefined. The second is stronger than the first, and nearer to it than to the last. -/
def shaded : List (BlockHit Float32) :=
  [⟨1, ⟨.glass, 19, 0, 0, 0, 0⟩, ⟨.empty, 1, 0, 0⟩, 20⟩,
    ⟨2, ⟨.glass, 1, 1, 16.5, 0, 0⟩, ⟨.empty, 1, 1, 0⟩, 30⟩,
    ⟨3, ⟨.glass, 1, 1, 17.5, 0, 0⟩, ⟨.empty, 1, 2, 0⟩, 40⟩,
    ⟨4, ⟨.glass, 20, 0, 34, 0.1, 0⟩, ⟨.empty, 1, 3, 0⟩, 60⟩]

def onePass : CaloSettings Float32 := { CaloSettings.standard with splitIterations := 1 }

/-- The second block goes to the part of the first and is its center. -/
theorem part_centered_on_neighbor :
    (shaded.map BlockHit.address).Nodup ∧ (∀ hit ∈ shaded, 0 < hit.energy) ∧
      ∃ group ∈ groups onePass shaded, 2 ≤ (localMaxima onePass group).length ∧
        (split onePass .standard group).map (·.center.id) ≠
          (localMaxima onePass group).map (·.1.id) := by
  have hblank : ∃ group ∈ groups onePass shaded, 2 ≤ (localMaxima onePass group).length ∧
      (∀ hit ∈ group, ∀ m ∈ localMaxima onePass group, Profile.Unread
        ((m.1.place.x - hit.place.x) / hit.place.sizeX)
        ((m.1.place.y - hit.place.y) / hit.place.sizeY)) ∧
      (split onePass ⟨#[], #[]⟩ group).map (·.center.id) ≠
        (localMaxima onePass group).map (·.1.id) := by
    have hsector : ∀ hit ∈ shaded, hit.site.sector = 1 := by decide
    have hlive : Primex.live onePass shaded = shaded :=
      List.filter_eq_self.mpr (by decide +kernel)
    have hsorted : shaded.mergeSort columnOrder = shaded :=
      List.mergeSort_of_pairwise (by decide)
    rw [groups_of_sector onePass hsector, hlive, sectorGroups, chains, hsorted]
    decide +kernel
  obtain ⟨group, hg, hmany, hunread, hcenters⟩ := hblank
  refine ⟨by decide, by decide +kernel, group, hg, hmany, ?_⟩
  have hsplit : split onePass .standard group = split onePass ⟨#[], #[]⟩ group :=
    split_congr (by decide) fun hit hh m hm =>
      Profile.fraction_unread _ _ _ (hunread hit hh m hm)
  rw [hsplit]
  exact hcenters

end Island

end ShowerTrack
