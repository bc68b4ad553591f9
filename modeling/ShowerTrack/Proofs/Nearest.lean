import ShowerTrack.Proofs.Foremost
import ShowerTrack.Proofs.Lengths
import ShowerTrack.Proofs.Takeovers

/-!
# Nearest windows

A hit that is no seed goes to the nearest of the windows that it lies in, and to the first of
those that are equally near. So the hits in windows are divided among the clusters, and only those
outside of all windows are lost.
-/

set_option autoImplicit false

namespace ShowerTrack

variable {α : Type} [Scalar α]

theorem nearer_iff (a b : Nat × α) :
    nearer a b = true ↔ a.1 < b.1 ∨ (a.1 = b.1 ∧ a.2 < b.2) := by
  simp [nearer]

/-- Of two windows that are given by how near they are and by their numbers, the nearer one is
better. -/
def nearestFirst [Scalar.Ordered α] : Ranking ((Nat × α) × Nat) where
  reaches a b := a.1.1 < b.1.1 ∨ (a.1.1 = b.1.1 ∧ a.1.2 ≤ b.1.2)
  beats a b := a.1.1 < b.1.1 ∨ (a.1.1 = b.1.1 ∧ a.1.2 < b.1.2)
  irrefl _ h := h.elim (lt_irrefl _) fun h => Scalar.Ordered.lt_irrefl _ h.2
  reaches_of_beats := Or.imp_right fun h => ⟨h.1, Scalar.Ordered.le_of_lt h.2⟩
  beats_of_reaches := by
    rintro a b c (hab | ⟨hab, hle⟩) (hbc | ⟨hbc, hlt⟩)
    · exact .inl (hab.trans hbc)
    · exact .inl (hbc ▸ hab)
    · exact .inl (hab ▸ hbc)
    · exact .inr ⟨hab.trans hbc, Scalar.Ordered.lt_of_le_of_lt hle hlt⟩

namespace Square

/-- The window at a position is the nearest one that a hit lies in, and the first of those that
are equally near. -/
def Nearest (size : Nat) (seeds : List (Numbered α)) (hit : BlockHit α) (pos : Nat) : Prop :=
  ∃ seed, seeds[pos]? = some seed ∧ inWindow size seed.1 hit = true ∧
    ∀ (k : Nat) (other : Numbered α), seeds[k]? = some other → inWindow size other.1 hit = true →
      seed.1.distance hit ≤ other.1.distance hit ∧
        (k < pos → seed.1.distance hit < other.1.distance hit)

def openWindows (size : Nat) (seeds : List (Numbered α)) (hit : BlockHit α) :
    List ((Nat × α) × Nat) :=
  (seeds.zipIdx.filter fun w => inWindow size w.1.1 hit).map fun w => (w.1.1.nearness hit, w.2)

section Owners

variable {size : Nat} {seeds : List (Numbered α)} {hit : BlockHit α} {pos : Nat}

theorem mem_openWindows {key : (Nat × α) × Nat} : key ∈ openWindows size seeds hit ↔
    ∃ seed, seeds[key.2]? = some seed ∧ inWindow size seed.1 hit = true ∧
      seed.1.nearness hit = key.1 := by
  rw [openWindows, List.mem_map]
  constructor
  · rintro ⟨w, hw, rfl⟩
    obtain ⟨hw, hinside⟩ := List.mem_filter.mp hw
    exact ⟨w.1, List.mem_zipIdx_iff_getElem?.mp hw, hinside, rfl⟩
  · rintro ⟨seed, hseed, hinside, hkey⟩
    exact ⟨(seed, key.2), List.mem_filter.mpr ⟨List.mem_zipIdx_iff_getElem?.mpr hseed, hinside⟩,
      Prod.ext hkey rfl⟩

theorem openWindows_sorted (size : Nat) (seeds : List (Numbered α)) (hit : BlockHit α) :
    (openWindows size seeds hit).Pairwise fun a b => a.2 < b.2 := by
  rw [openWindows, List.pairwise_map]
  exact (zipIdx_sorted seeds).filter _

variable [Scalar.Ordered α]

theorem Nearest.unique {p q : Nat} (hp : Nearest size seeds hit p)
    (hq : Nearest size seeds hit q) : p = q := by
  obtain ⟨seed, hseed, hinside, hfirst⟩ := hp
  obtain ⟨other, hother, hother', hfirst'⟩ := hq
  rcases Nat.lt_trichotomy p q with hlt | heq | hgt
  · have hnearer := (hfirst' p seed hseed hinside).2 hlt
    exact absurd hnearer (Scalar.Ordered.not_lt_of_le (hfirst q other hother hother').1)
  · exact heq
  · have hnearer := (hfirst q other hother hother').2 hgt
    exact absurd hnearer (Scalar.Ordered.not_lt_of_le (hfirst' p seed hseed hinside).1)

variable [Scalar.Measured α]

/-- How far a hit in a window is from the seed is a number. -/
theorem distance_number {seed : BlockHit α} (h : inWindow size seed hit = true) :
    seed.distance hit ≤ seed.distance hit := by
  rw [inWindow, Bool.and_eq_true, decide_eq_true_eq, decide_eq_true_eq] at h
  exact Scalar.Measured.length_number (Scalar.Ordered.le_self_left (Scalar.Ordered.le_of_lt h.1))
    (Scalar.Ordered.le_self_left (Scalar.Ordered.le_of_lt h.2))

theorem nearness_of_inWindow {seed : BlockHit α} (h : inWindow size seed hit = true) :
    seed.nearness hit = (1, seed.distance hit) := by
  have hnumber : Scalar.isNumber (seed.place.distance hit.place) = true :=
    decide_eq_true (distance_number h)
  simp [BlockHit.nearness, Placement.nearness, hnumber, BlockHit.distance]

theorem nearest_of_owner? (h : owner? size seeds hit = some pos) : Nearest size seeds hit pos := by
  obtain ⟨seed, hseed, hinside⟩ := inWindow_of_owner? h
  obtain ⟨key, hkey, rfl⟩ := Option.map_eq_some_iff.mp h
  have hfirst : nearestFirst.First (openWindows size seeds hit) key :=
    Ranking.first_firstLeast? (fun a b => nearer_iff a.1 b.1) hkey
  have hnear : key.1 = (1, seed.1.distance hit) := by
    obtain ⟨seed', hseed', hinside', hnear⟩ := mem_openWindows.mp hfirst.mem
    obtain rfl := Option.some.inj (hseed.symm.trans hseed')
    rw [← hnear, nearness_of_inWindow hinside']
  refine ⟨seed, hseed, hinside, ?_⟩
  intro k other hother hother'
  have hopen : ((1, other.1.distance hit), k) ∈ openWindows size seeds hit :=
    mem_openWindows.mpr ⟨other, hother, hother', nearness_of_inWindow hother'⟩
  have hfarther := hfirst.not_beats _ hopen
  have hearlier := hfirst.of_sorted (openWindows_sorted size seeds hit) _ hopen
  simp only [nearestFirst, hnear, lt_irrefl, false_or, true_and] at hfarther hearlier
  have hother := distance_number hother'
  have hseed := distance_number hinside
  exact ⟨Scalar.Ordered.le_of_not_lt hother hseed hfarther,
    fun hk => Scalar.Ordered.lt_of_not_le hseed hother (hearlier hk)⟩

/-- A hit falls to the nearest window that it lies in. -/
theorem owner?_eq_some_iff : owner? size seeds hit = some pos ↔ Nearest size seeds hit pos := by
  constructor
  · exact nearest_of_owner?
  · intro h
    obtain ⟨seed, hseed, hinside, _⟩ := id h
    obtain ⟨first, howner⟩ := exists_owner? (List.mem_of_getElem? hseed) hinside
    rw [howner, (nearest_of_owner? howner).unique h]

end Owners

def members (size : Nat) (seeds : List (Numbered α)) (hits : List (BlockHit α)) (pos : Nat) :
    List (Numbered α) :=
  hits.zipIdx.filter fun x =>
    (seeds.all fun seed => seed.2 != x.2) && owner? size seeds x.1 == some pos

def part (size : Nat) (seeds : List (Numbered α)) (hits : List (BlockHit α))
    (w : Numbered α × Nat) : List (Numbered α) :=
  w.1 :: members size seeds hits w.2

def kept (size : Nat) (seeds : List (Numbered α)) (hits : List (BlockHit α)) :
    List (Numbered α) :=
  hits.zipIdx.filter fun x => seeds.any fun seed => seed.2 == x.2 || inWindow size seed.1 x.1

theorem hits_window (size : Nat) (seeds : List (Numbered α)) (hits : List (BlockHit α))
    (w : Numbered α × Nat) :
    (window ((free seeds hits).map fun hit => (hit, owner? size seeds hit)) w.1 w.2).hits =
      (part size seeds hits w).map Prod.fst := by
  have hcons : ∀ hs, ((BlockCluster.single w.1.1).addAll hs).hits = w.1.1 :: hs :=
    BlockCluster.hits_addAll (.single w.1.1)
  rw [window, hcons]
  simp [part, members, free, List.filter_map, List.filter_filter, Function.comp_def, Bool.and_comm]

/-- The clusters are the parts of the windows, in the order of their seeds. -/
theorem map_hits_clusters (s : CaloSettings α) (hits : List (BlockHit α)) :
    (clusters s hits).map (·.hits) = ((seeds s (Primex.live s hits)).zipIdx.map
      (part s.squareSize (seeds s (Primex.live s hits)) (Primex.live s hits))).map
        (List.map Prod.fst) := by
  rw [List.map_map (f := part _ _ _), clusters, List.map_map]
  exact List.map_congr_left fun w _ => hits_window _ _ _ w

section Parts

variable {size : Nat} {seeds : List (Numbered α)} {hits : List (BlockHit α)}

theorem mem_members {pos : Nat} {m : Numbered α} : m ∈ members size seeds hits pos ↔
    m ∈ hits.zipIdx ∧ (∀ seed ∈ seeds, seed.2 ≠ m.2) ∧ owner? size seeds m.1 = some pos := by
  simp [members]

/-- A seed falls to no window, and every other hit to one at most. -/
theorem nodup_parts (hseeds : (seeds.map Prod.snd).Nodup) :
    (seeds.zipIdx.map (part size seeds hits)).flatten.Nodup := by
  have hfree : ∀ w ∈ seeds.zipIdx, ∀ pos, w.1 ∉ members size seeds hits pos := fun w hw pos hm =>
    (mem_members.mp hm).2.1 w.1 (List.fst_mem_of_mem_zipIdx hw) rfl
  have hdistinct : seeds.zipIdx.Pairwise fun v w => v.1.2 ≠ w.1.2 := by
    rw [← List.zipIdx_map_fst 0 seeds, List.map_map] at hseeds
    exact List.pairwise_map.mp hseeds
  rw [← List.flatMap_def, List.nodup_flatMap]
  constructor
  · intro w hw
    exact List.nodup_cons.mpr
      ⟨hfree w hw w.2, (List.nodup_zipIdx_map_snd hits).of_map.filter _⟩
  · apply ((zipIdx_sorted seeds).and hdistinct).imp_of_mem
    rintro v w hv hw ⟨hlt, hne⟩ m hmv hmw
    -- a common entry would be the seed of both, a seed that is free, or owned by both windows
    rcases List.mem_cons.mp hmv with rfl | hmv
    · rcases List.mem_cons.mp hmw with heq | hmw
      · exact hne (congrArg Prod.snd heq)
      · exact hfree v hv w.2 hmw
    · rcases List.mem_cons.mp hmw with rfl | hmw
      · exact hfree w hw v.2 hmv
      · have howner := (mem_members.mp hmv).2.2.symm.trans (mem_members.mp hmw).2.2
        exact hlt.ne (Option.some.inj howner)

theorem mem_parts_iff (hseeds : ∀ seed ∈ seeds, hits[seed.2]? = some seed.1) {m : Numbered α} :
    m ∈ (seeds.zipIdx.map (part size seeds hits)).flatten ↔ m ∈ kept size seeds hits := by
  have hkept : m ∈ kept size seeds hits ↔ m ∈ hits.zipIdx ∧
      ∃ seed ∈ seeds, seed.2 = m.2 ∨ inWindow size seed.1 m.1 = true := by
    simp [kept]
  rw [hkept, ← List.flatMap_def, List.mem_flatMap]
  constructor
  · rintro ⟨w, hw, hm⟩
    have hs := List.fst_mem_of_mem_zipIdx hw
    rcases List.mem_cons.mp hm with rfl | hm
    · exact ⟨List.mem_zipIdx_iff_getElem?.mpr (hseeds w.1 hs), w.1, hs, .inl rfl⟩
    · obtain ⟨hhit, _, howner⟩ := mem_members.mp hm
      obtain ⟨seed, hseed, hinside⟩ := inWindow_of_owner? howner
      exact ⟨hhit, seed, List.mem_of_getElem? hseed, .inr hinside⟩
  · rintro ⟨hhit, seed, hs, hseed⟩
    -- a seed is in its own part even if it lies in the window of another one
    by_cases hfree : ∀ seed ∈ seeds, seed.2 ≠ m.2
    · obtain ⟨pos, howner⟩ := exists_owner? hs (hseed.resolve_left (hfree seed hs))
      obtain ⟨first, hfirst, _⟩ := inWindow_of_owner? howner
      exact ⟨(first, pos), List.mem_zipIdx_iff_getElem?.mpr hfirst,
        List.mem_cons_of_mem first (mem_members.mpr ⟨hhit, hfree, howner⟩)⟩
    · push Not at hfree
      obtain ⟨own, ho, heq⟩ := hfree
      obtain ⟨pos, hpos⟩ := List.getElem?_of_mem ho
      have hsame : m = own := by
        have hread := hseeds own ho
        rw [heq, List.mem_zipIdx_iff_getElem?.mp hhit] at hread
        exact Prod.ext (Option.some.inj hread) heq.symm
      exact ⟨(own, pos), List.mem_zipIdx_iff_getElem?.mpr hpos, hsame ▸ List.mem_cons_self⟩

end Parts

/-- How the hits are divided among windows. The seeds are different maxima that are not too weak.
The part of a seed begins with it, and goes on with the hits that have no window of their own and
that its window is the nearest one to. A hit is in one part at most, and in none only if it lies
in no window. -/
structure Divided (s : CaloSettings α) (hits : List (BlockHit α)) (seeds : List (Numbered α))
    (parts : List (List (Numbered α))) : Prop where
  distinct : (seeds.map Prod.snd).Nodup
  read : ∀ seed ∈ seeds, hits[seed.2]? = some seed.1
  maximal : ∀ seed ∈ seeds, isLocalMax hits seed.1 = true
  strong : ∀ seed ∈ seeds, ¬ seed.1.energy < s.minCenterEnergy
  energetic : Scalar.isNumber s.minCenterEnergy = true →
    ∀ seed ∈ seeds, s.minCenterEnergy ≤ seed.1.energy
  gathered : List.Forall₂ (fun w part => ∃ members, part = w.1 :: members ∧
    members.Sublist hits.zipIdx ∧ ∀ m, m ∈ members ↔ m ∈ hits.zipIdx ∧
      (∀ seed ∈ seeds, seed.2 ≠ m.2) ∧ Nearest s.squareSize seeds m.1 w.2) seeds.zipIdx parts
  once : parts.flatten.Perm (kept s.squareSize seeds hits)

section Divided

variable [Scalar.Ordered α] [Scalar.Measured α]

/-- The clusters hold the hits that reach the block threshold as the windows divide them. -/
theorem clusters_divided (s : CaloSettings α) (hits : List (BlockHit α)) : ∃ parts,
    Divided s (Primex.live s hits) (seeds s (Primex.live s hits)) parts ∧
      (clusters s hits).map (·.hits) = parts.map (List.map Prod.fst) := by
  have hread : ∀ seed ∈ seeds s (Primex.live s hits), (Primex.live s hits)[seed.2]? = some seed.1 :=
    fun seed => getElem?_of_mem_seeds
  have hseed : ∀ seed ∈ seeds s (Primex.live s hits),
      ¬ seed.1.energy < s.minCenterEnergy ∧ isLocalMax (Primex.live s hits) seed.1 = true := by
    intro seed hs
    have hmax := (List.mem_filter.mp (mem_maxima_of_mem_seeds hs)).2
    simpa [isSeed] using hmax
  have hdistinct := nodup_seeds s (Primex.live s hits)
  refine ⟨_, ⟨hdistinct, hread, fun seed hs => (hseed seed hs).2, fun seed hs => (hseed seed hs).1,
    ?_, ?_, ?_⟩, map_hits_clusters s hits⟩
  · intro hmin seed hs
    have hlive := List.mem_filter.mp (List.mem_of_getElem? (hread seed hs))
    exact Scalar.Ordered.le_of_not_lt (Scalar.Ordered.le_self_right (of_decide_eq_true hlive.2))
      (of_decide_eq_true hmin) (hseed seed hs).1
  · rw [List.forall₂_map_right_iff, List.forall₂_same]
    intro w _
    refine ⟨_, rfl, List.filter_sublist, ?_⟩
    intro m
    rw [mem_members, owner?_eq_some_iff]
  · have hkept : (kept s.squareSize (seeds s (Primex.live s hits)) (Primex.live s hits)).Nodup :=
      (List.nodup_zipIdx_map_snd _).of_map.filter _
    exact (List.perm_ext_iff_of_nodup (nodup_parts hdistinct) hkept).mpr fun m =>
      mem_parts_iff hread

end Divided

/-- The strongest of three crystals has the window, and the first one lies in it. The weakest lies
in none. -/
theorem moved_clusters_divided :
    (kept (CaloSettings.standard (α := Float32)).squareSize
      (seeds .standard (Primex.live .standard moved)) (Primex.live .standard moved)).map (·.2) =
        [0, 2] ∧
      ∃ parts, Divided .standard (Primex.live .standard moved)
        (seeds .standard (Primex.live .standard moved)) parts ∧
          (clusters .standard moved).map (·.hits) = parts.map (List.map Prod.fst) :=
  ⟨by decide +kernel, clusters_divided .standard moved⟩

/-- No energy is below a threshold that is no number, so that a maximum that does not reach it has
a window. -/
theorem seed_below_no_threshold :
    (∀ hit ∈ lone, Scalar.isNumber hit.energy = true ∧ hit.place.isNumber = true) ∧
      ∃ c ∈ clusters doubtful lone, ∀ hit ∈ c.hits, ¬ doubtful.minCenterEnergy ≤ hit.energy := by
  decide +kernel

end Square

end ShowerTrack
