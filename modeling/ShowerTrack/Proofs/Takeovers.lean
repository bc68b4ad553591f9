import ShowerTrack.Proofs.Checked.Square
import ShowerTrack.Proofs.Windows

/-!
# Takeovers

A maximum that lies in the window of one that is not weaker is dropped, because its hit falls to
that window. A stronger maximum that comes later takes the window over and moves it onto itself,
and then the dropped one may lie outside of all windows. So a maximum is kept as long as the window
that it found is not taken over.
-/

set_option autoImplicit false

namespace ShowerTrack.Square

variable {α : Type} [Scalar α]

section Members

theorem exists_owner? {size : Nat} {seeds : List (Numbered α)} {hit : BlockHit α}
    {seed : Numbered α} (hs : seed ∈ seeds) (h : inWindow size seed.1 hit = true) :
    ∃ pos, owner? size seeds hit = some pos := by
  obtain ⟨pos, hpos⟩ := List.getElem?_of_mem hs
  have hopen : (seed, pos) ∈ seeds.zipIdx.filter fun w => inWindow size w.1.1 hit :=
    List.mem_filter.mpr ⟨List.mem_zipIdx_iff_getElem?.mpr hpos, h⟩
  obtain ⟨key, _, hkey⟩ := firstLeast?_mem (fun a b => nearer a.1 b.1)
    (List.ne_nil_of_mem (List.mem_map_of_mem (f := fun w => (w.1.1.nearness hit, w.2)) hopen))
  exact ⟨key.2, Option.map_eq_some_iff.mpr ⟨key, hkey, rfl⟩⟩

theorem mem_window {owned : List (BlockHit α × Option Nat)} {seed : Numbered α} {pos : Nat}
    {hit : BlockHit α} :
    hit ∈ (window owned seed pos).hits ↔ hit = seed.1 ∨ (hit, some pos) ∈ owned := by
  rw [window, BlockCluster.hits_addAll, List.mem_append]
  apply or_congr List.mem_singleton
  simp

/-- The cluster of a window, when every hit that is no seed has gone to the window it falls to. -/
def gather (size : Nat) (seeds : List (Numbered α)) (hits : List (BlockHit α))
    (w : Numbered α × Nat) : BlockCluster α :=
  window ((free seeds hits).map fun hit => (hit, owner? size seeds hit)) w.1 w.2

theorem clusters_eq_gather (s : CaloSettings α) (hits : List (BlockHit α)) :
    clusters s hits = (seeds s (Primex.live s hits)).zipIdx.map
      (gather s.squareSize (seeds s (Primex.live s hits)) (Primex.live s hits)) :=
  rfl

theorem mem_gather {size : Nat} {seeds : List (Numbered α)} {hits : List (BlockHit α)}
    {w : Numbered α × Nat} {hit : BlockHit α} : hit ∈ (gather size seeds hits w).hits ↔
      hit = w.1.1 ∨ (hit ∈ free seeds hits ∧ owner? size seeds hit = some w.2) := by
  rw [gather, mem_window]
  apply or_congr_right
  simp

variable {s : CaloSettings α} {hits : List (BlockHit α)} {hit : BlockHit α} {seed : Numbered α}

theorem gather_mem_clusters {pos : Nat} (hpos : (seeds s (Primex.live s hits))[pos]? = some seed) :
    gather s.squareSize (seeds s (Primex.live s hits)) (Primex.live s hits) (seed, pos) ∈
      clusters s hits := by
  rw [clusters_eq_gather]
  exact List.mem_map_of_mem (List.mem_zipIdx_iff_getElem?.mpr hpos)

theorem exists_cluster_of_seed (hs : seed ∈ seeds s (Primex.live s hits)) :
    ∃ c ∈ clusters s hits, seed.1 ∈ c.hits := by
  obtain ⟨pos, hpos⟩ := List.getElem?_of_mem hs
  exact ⟨_, gather_mem_clusters hpos, mem_gather.mpr (.inl rfl)⟩

theorem exists_cluster_of_free (hs : seed ∈ seeds s (Primex.live s hits))
    (hinside : inWindow s.squareSize seed.1 hit = true)
    (hfree : hit ∈ free (seeds s (Primex.live s hits)) (Primex.live s hits)) :
    ∃ c ∈ clusters s hits, hit ∈ c.hits := by
  obtain ⟨pos, howner⟩ := exists_owner? hs hinside
  obtain ⟨first, hpos, _⟩ := inWindow_of_owner? howner
  exact ⟨_, gather_mem_clusters hpos, mem_gather.mpr (.inr ⟨hfree, howner⟩)⟩

/-- The clusters hold the seeds and the hits in their windows. -/
theorem mem_clusters_iff (hh : hit ∈ Primex.live s hits) :
    (∃ c ∈ clusters s hits, hit ∈ c.hits) ↔ ∃ seed ∈ seeds s (Primex.live s hits),
      hit = seed.1 ∨ inWindow s.squareSize seed.1 hit = true := by
  constructor
  · rintro ⟨c, hc, hhit⟩
    rw [clusters_eq_gather] at hc
    obtain ⟨⟨seed, pos⟩, hx, rfl⟩ := List.mem_map.mp hc
    refine ⟨seed, List.fst_mem_of_mem_zipIdx hx, ?_⟩
    apply (mem_gather.mp hhit).imp_right
    rintro ⟨_, howner⟩
    obtain ⟨seed', hseed', hinside⟩ := inWindow_of_owner? howner
    obtain rfl := Option.some.inj ((List.mem_zipIdx_iff_getElem?.mp hx).symm.trans hseed')
    exact hinside
  · rintro ⟨seed, hs, rfl | hinside⟩
    · exact exists_cluster_of_seed hs
    · obtain ⟨i, hi⟩ := List.getElem?_of_mem hh
      rcases seed_or_free (seeds s (Primex.live s hits)) hi with ⟨own, hown, rfl⟩ | hfree
      · obtain rfl := Option.some.inj (hi.symm.trans (getElem?_of_mem_seeds hown))
        exact exists_cluster_of_seed hown
      · exact exists_cluster_of_free hs hinside hfree

end Members

/-- What a maximum finds at its turn: it gets a window for itself, or it is dropped in the window of
an earlier seed that is not weaker. -/
def Finds (s : CaloSettings α) (hits : List (BlockHit α)) (m w : Numbered α) : Prop :=
  ∃ placed, AtTurn s hits m placed ∧
    ((w = m ∧ m ∈ placeSeed s.squareSize placed m) ∨
      (placeSeed s.squareSize placed m = placed ∧ w ∈ placed ∧ w ∈ maxima s hits ∧ w.2 < m.2 ∧
        inWindow s.squareSize w.1 m.1 = true ∧ ¬ w.1.energy < m.1.energy))

theorem Finds.cases {s : CaloSettings α} {hits : List (BlockHit α)} {m w : Numbered α}
    (h : Finds s hits m w) :
    w = m ∨ (inWindow s.squareSize w.1 m.1 = true ∧ ¬ w.1.energy < m.1.energy) := by
  obtain ⟨_, _, ⟨heq, _⟩ | ⟨_, _, _, _, hinside⟩⟩ := h
  · exact .inl heq
  · exact .inr hinside

def TakesOver (s : CaloSettings α) (hits : List (BlockHit α)) (a b : Numbered α) : Prop :=
  ∃ front back, TookOver s hits front a back b

section Steps

variable {s : CaloSettings α} {hits : List (BlockHit α)} {w x : Numbered α}
  {placed : List (Numbered α)}

/-- A maximum opens a window, takes one over, or leaves the one it lies in as it is. -/
theorem AtTurn.exists_finds (h : AtTurn s hits x placed) :
    ∃ w ∈ placeSeed s.squareSize placed x, Finds s hits x w := by
  rcases placeSeed_cases s.squareSize placed x with
    ⟨_, hopens⟩ | ⟨front, w, back, rfl, _, hinside, hput⟩
  · have hx : x ∈ placeSeed s.squareSize placed x := by simp [hopens]
    exact ⟨x, hx, placed, h, .inl ⟨rfl, hx⟩⟩
  · by_cases hweaker : w.1.energy < x.1.energy
    · rw [if_pos hweaker] at hput
      have hx : x ∈ placeSeed s.squareSize (front ++ w :: back) x := by simp [hput]
      exact ⟨x, hx, _, h, .inl ⟨rfl, hx⟩⟩
    · rw [if_neg hweaker] at hput
      have hw : w ∈ front ++ w :: back := by simp
      obtain ⟨hmax, hearlier⟩ := h.earlier w hw
      exact ⟨w, hput.symm ▸ hw, _, h, .inr ⟨hput, hw, hmax, hearlier, hinside, hweaker⟩⟩

/-- A seed stays, or the next maximum takes its window over. -/
theorem AtTurn.stays_or_taken (h : AtTurn s hits x placed) (hw : w ∈ placed) :
    w ∈ placeSeed s.squareSize placed x ∨
      (x ∈ placeSeed s.squareSize placed x ∧ TakesOver s hits w x) := by
  rcases placeSeed_cases s.squareSize placed x with
    ⟨_, hopens⟩ | ⟨front, c, back, rfl, hfirst, hinside, hput⟩
  · rw [hopens]
    exact .inl (List.mem_append_left _ hw)
  · rw [hput]
    by_cases hweaker : c.1.energy < x.1.energy
    · rw [if_pos hweaker]
      rcases List.mem_append.mp hw with hfront | hrest
      · exact .inl (List.mem_append_left _ hfront)
      · rcases List.mem_cons.mp hrest with rfl | hback
        · exact .inr ⟨by simp, front, back, h.tookOver hfirst hinside hweaker⟩
        · exact .inl (List.mem_append_right _ (List.mem_cons_of_mem x hback))
    · rw [if_neg hweaker]
      exact .inl hw

/-- The window of a seed goes from one maximum to a later one, up to a seed that keeps it. -/
theorem exists_takers {before later : List (Numbered α)} (hsplit : maxima s hits = before ++ later)
    (hw : w ∈ before.foldl (placeSeed s.squareSize) []) :
    ∃ takers, takers.Sublist later ∧ (w :: takers).IsChain (TakesOver s hits) ∧
      (w :: takers).getLast (List.cons_ne_nil w takers) ∈ seeds s hits := by
  -- the seed to follow changes with every takeover
  induction later generalizing before w with
  | nil =>
    have hseeds : seeds s hits = (maxima s hits).foldl (placeSeed s.squareSize) [] := rfl
    rw [hseeds, hsplit, List.append_nil]
    exact ⟨[], .slnil, .singleton w, hw⟩
  | cons x later ih =>
    have hturn : AtTurn s hits x (before.foldl (placeSeed s.squareSize) []) :=
      ⟨before, later, hsplit, rfl⟩
    have hnext : maxima s hits = (before ++ [x]) ++ later := by
      rw [hsplit, List.append_assoc, List.singleton_append]
    have hfold : (before ++ [x]).foldl (placeSeed s.squareSize) [] =
        placeSeed s.squareSize (before.foldl (placeSeed s.squareSize) []) x := by
      rw [List.foldl_append, List.foldl_cons, List.foldl_nil]
    rcases hturn.stays_or_taken hw with hstays | ⟨hplaced, htakes⟩
    · obtain ⟨takers, hsub, hchain, hlast⟩ := ih hnext (hfold ▸ hstays)
      exact ⟨takers, hsub.cons x, hchain, hlast⟩
    · obtain ⟨takers, hsub, hchain, hlast⟩ := ih hnext (hfold ▸ hplaced)
      refine ⟨x :: takers, hsub.cons_cons x, .cons_cons htakes hchain, ?_⟩
      rwa [List.getLast_cons (List.cons_ne_nil x takers)]

end Steps

/-- What becomes of a maximum: it finds a window, which later maxima take over, one after the
other, until the last of them keeps it as a seed. -/
structure Fate (s : CaloSettings α) (hits : List (BlockHit α)) (m w : Numbered α)
    (takers : List (Numbered α)) : Prop where
  found : Finds s hits m w
  later : (m :: takers).Sublist (maxima s hits)
  taken : (w :: takers).IsChain (TakesOver s hits)
  kept : (w :: takers).getLast (List.cons_ne_nil w takers) ∈ seeds s hits

theorem exists_fate {s : CaloSettings α} {hits : List (BlockHit α)} {m : Numbered α}
    (hm : m ∈ maxima s hits) : ∃ w takers, Fate s hits m w takers := by
  obtain ⟨before, later, hsplit⟩ := List.append_of_mem hm
  have hturn : AtTurn s hits m (before.foldl (placeSeed s.squareSize) []) :=
    ⟨before, later, hsplit, rfl⟩
  obtain ⟨w, hw, hfound⟩ := hturn.exists_finds
  have hplaced : w ∈ (before ++ [m]).foldl (placeSeed s.squareSize) [] := by
    rwa [List.foldl_append, List.foldl_cons, List.foldl_nil]
  have hrest : maxima s hits = (before ++ [m]) ++ later := by
    rw [hsplit, List.append_assoc, List.singleton_append]
  obtain ⟨takers, hsub, hchain, hlast⟩ := exists_takers hrest hplaced
  refine ⟨w, takers, hfound, ?_, hchain, hlast⟩
  rw [hsplit]
  exact (hsub.cons_cons m).trans (List.sublist_append_right before _)

section Ordered

variable [Scalar.Ordered α]

theorem lt_of_mem_takers {s : CaloSettings α} {hits : List (BlockHit α)} {w : Numbered α}
    {takers : List (Numbered α)} (h : (w :: takers).IsChain (TakesOver s hits)) :
    ∀ t ∈ takers, w.1.energy < t.1.energy := by
  induction takers generalizing w with
  | nil => simp
  | cons first takers ih =>
    obtain ⟨⟨_, _, htook⟩, hrest⟩ := List.isChain_cons_cons.mp h
    rw [List.forall_mem_cons]
    exact ⟨htook.weaker, fun t ht => Scalar.Ordered.lt_trans htook.weaker (ih hrest t ht)⟩

/-- A maximum is in a cluster just when it is a seed or lies in the window of one. So it is, unless
the window that it found was taken over after it, by later and stronger maxima only. -/
theorem maximum_kept_unless_taken_over (s : CaloSettings α) (hits : List (BlockHit α))
    {m : Numbered α} (hm : m ∈ maxima s (Primex.live s hits)) :
    ((∃ c ∈ clusters s hits, m.1 ∈ c.hits) ↔ ∃ seed ∈ seeds s (Primex.live s hits),
      m.1 = seed.1 ∨ inWindow s.squareSize seed.1 m.1 = true) ∧
    ∃ w takers, Fate s (Primex.live s hits) m w takers ∧
      (takers = [] → ∃ c ∈ clusters s hits, m.1 ∈ c.hits) ∧
      ∀ t ∈ takers, m.1.energy < t.1.energy := by
  have hlive : m.1 ∈ Primex.live s hits := List.fst_mem_of_mem_zipIdx (List.mem_of_mem_filter hm)
  obtain ⟨w, takers, hfate⟩ := exists_fate hm
  refine ⟨mem_clusters_iff hlive, w, takers, hfate, ?_, ?_⟩
  · rintro rfl
    refine (mem_clusters_iff hlive).mpr ⟨w, hfate.kept, ?_⟩
    exact hfate.found.cases.imp (fun h => by rw [h]) And.left
  · intro t ht
    have hstronger := lt_of_mem_takers hfate.taken t ht
    rcases hfate.found.cases with rfl | ⟨_, hweaker⟩
    · exact hstronger
    · have hnumber : m.1.energy ≤ m.1.energy :=
        Scalar.Ordered.le_self_right (of_decide_eq_true (List.mem_filter.mp hlive).2)
      have hle := Scalar.Ordered.le_of_not_lt
        (Scalar.Ordered.le_self_left (Scalar.Ordered.le_of_lt hstronger)) hnumber hweaker
      exact Scalar.Ordered.lt_of_le_of_lt hle hstronger

end Ordered

/-- Three maxima in a row of which the one in the middle comes first and the strongest last. -/
def moved : List (BlockHit Float32) :=
  [(Sectors.crystal 0 19).hit 200, (Sectors.crystal 0 17).hit 100, (Sectors.crystal 0 21).hit 300]

theorem moved_maximum_kept_unless_taken_over :
    ((Sectors.crystal 0 17).hit 100, 1) ∈ maxima .standard (Primex.live .standard moved) ∧
      ∃ w takers, Fate .standard (Primex.live .standard moved)
        ((Sectors.crystal 0 17).hit 100, 1) w takers ∧
          ∀ t ∈ takers, (100 : Float32) < t.1.energy := by
  have hlive : Primex.live .standard moved = moved := List.filter_eq_self.mpr (by decide +kernel)
  have hm : ((Sectors.crystal 0 17).hit 100, 1) ∈
      maxima .standard (Primex.live .standard moved) := by
    rw [hlive]
    exact List.mem_filter.mpr ⟨List.mem_zipIdx_iff_getElem?.mpr rfl, by decide +kernel⟩
  obtain ⟨w, takers, hfate, _, hstronger⟩ := (maximum_kept_unless_taken_over .standard moved hm).2
  exact ⟨hm, w, takers, hfate, hstronger⟩

theorem dropped_maximum_lost :
    (∀ hit ∈ moved, Scalar.isNumber hit.energy = true ∧ hit.place.isNumber = true) ∧
      ∃ hit ∈ Primex.live .standard moved, CaloSettings.standard.minCenterEnergy ≤ hit.energy ∧
        (∀ other ∈ Primex.live .standard moved, hit.energy < other.energy →
          cornerAdjacent ≤ hit.distance other) ∧
        ∀ c ∈ clusters .standard moved, ∀ k ∈ c.hits, k.id ≠ hit.id := by
  decide +kernel

end ShowerTrack.Square
