import Mathlib.Logic.Function.Iterate
import ShowerTrack.Proofs.Summits

/-!
# Archipelagos

The islands of a grid are the connected parts of its land, in reading order: each is read row by
row, and they come as their first cells do. A flood ends after as many turns as it floods cells.
A threshold that is no number cuts the grid into single cells.
-/

set_option autoImplicit false

namespace ShowerTrack

/-- Of two different cells the one that is not behind is before the other. -/
theorem Cell.before_of_ne {a b : Cell} (hba : b.before a = false) (hne : a ≠ b) :
    a.before b = true := by
  rw [← Bool.not_eq_true, before_iff] at hba
  rw [before_iff]
  rw [ne_eq, Prod.ext_iff] at hne
  omega

/-- Islands that are read row by row, and come in the order of their first cells. -/
structure InReadingOrder (islands : List (List Cell)) : Prop where
  within : ∀ island ∈ islands, island.Pairwise fun a b => a.before b = true
  across : islands.Pairwise fun g h => ∀ a ∈ g.head?, ∀ b ∈ h.head?, a.before b = true

namespace Grid

theorem cellsOf_sorted (rows columns : Nat) :
    (cellsOf rows columns).Pairwise fun a b => a.before b = true := by
  rw [cellsOf, List.pairwise_flatMap]
  constructor
  · intro r _
    rw [List.pairwise_map]
    apply List.pairwise_lt_range.imp
    intro c d hcd
    exact (Cell.before_iff _ _).mpr (.inr ⟨rfl, hcd⟩)
  · apply List.pairwise_lt_range.imp
    intro r t hrt a ha b hb
    obtain ⟨_, _, rfl⟩ := List.mem_map.mp ha
    obtain ⟨_, _, rfl⟩ := List.mem_map.mp hb
    exact (Cell.before_iff _ _).mpr (.inl hrt)

section Turns

variable (ways : Cell → List Cell)

def turn : List Cell × Std.HashSet Cell → List Cell × Std.HashSet Cell
  | ([], dry) => ([], dry)
  | (c :: edge, dry) => (ways c).foldl wet (edge, dry)

theorem length_flood (edge : List Cell) (dry : Std.HashSet Cell) :
    (flood ways edge dry).1.length + (flood ways edge dry).2.size = edge.length + dry.size := by
  induction edge, dry using flood.induct ways with
  | case1 dry => rw [flood]
  | case2 c edge dry next _ _ _ ih =>
    have hnext : next.1.length + next.2.size = edge.length + dry.size :=
      foldl_wet_size (ways c) (edge, dry)
    have hflood : flood ways (c :: edge) dry =
        (c :: (flood ways next.1 next.2).1, (flood ways next.1 next.2).2) := by
      rw [flood]
    simp only [hflood, List.length_cons]
    omega

/-- Every turn floods one cell, and after the last one the edge is empty. -/
theorem iterate_turn (edge : List Cell) (dry : Std.HashSet Cell) :
    (turn ways)^[(flood ways edge dry).1.length] (edge, dry) = ([], (flood ways edge dry).2) := by
  induction edge, dry using flood.induct ways with
  | case1 dry => rw [flood]; rfl
  | case2 c edge dry next _ _ _ ih =>
    rw [flood, List.length_cons, Function.iterate_succ_apply]
    exact ih

/-- Until its last turn a flood has an edge. -/
theorem edge_ne_nil (edge : List Cell) (dry : Std.HashSet Cell) :
    ∀ k < (flood ways edge dry).1.length, ((turn ways)^[k] (edge, dry)).1 ≠ [] := by
  induction edge, dry using flood.induct ways with
  | case1 dry => simp [flood]
  | case2 c edge dry next _ _ _ ih =>
    rintro (_ | k) hk
    · exact List.cons_ne_nil c edge
    · rw [flood, List.length_cons, Nat.add_lt_add_iff_right] at hk
      rw [Function.iterate_succ_apply]
      exact ih k hk

end Turns

section Reading

variable {ways : Cell → List Cell}

/-- An island that is read in order begins with its cell that comes before all others. -/
theorem head_of_least {island : List Cell} {c : Cell}
    (sorted : island.Pairwise fun a b => (!Cell.before b a) = true) (hc : c ∈ island)
    (hleast : ∀ d ∈ island, d ≠ c → c.before d = true) : ∀ a ∈ island.head?, a = c := by
  intro a ha
  match island with
  | [] => cases hc
  | first :: rest =>
    obtain rfl := Option.some.inj ha
    by_contra hne
    have hrest := (List.mem_cons.mp hc).resolve_left (Ne.symm hne)
    have hafter := (List.pairwise_cons.mp sorted).1 c hrest
    rw [hleast first List.mem_cons_self hne] at hafter
    cases hafter

theorem islandsFrom_across {cells : List Cell} {dry : Std.HashSet Cell}
    (sorted : cells.Pairwise fun a b => a.before b = true) (hdry : ∀ c ∈ dry, c ∈ cells) :
    (islandsFrom ways cells dry).Pairwise fun g h =>
      ∀ a ∈ g.head?, ∀ b ∈ h.head?, a.before b = true := by
  induction cells generalizing dry with
  | nil => exact .nil
  | cons c cells ih =>
    obtain ⟨hfirst, hsorted⟩ := List.pairwise_cons.mp sorted
    rw [islandsFrom]
    by_cases hc : c ∈ dry
    · have hbehind : ∀ d ∈ dry, d ≠ c → d ∈ cells := fun d hd hne =>
        (List.mem_cons.mp (hdry d hd)).resolve_left hne
      have hrest : ∀ d ∈ (flood ways [c] (dry.erase c)).2, d ∈ cells := by
        intro d hd
        have herased := Std.HashSet.mem_erase.mp (dry_of_mem_flood hd)
        exact hbehind d herased.2 fun h => by simp [h] at herased
      have hisland : ((flood ways [c] (dry.erase c)).1.mergeSort fun a b => !Cell.before b a) ∈
          islandsFrom ways (c :: cells) dry := by
        rw [islandsFrom, if_pos hc]
        exact List.mem_cons_self
      have hstart : c ∈ (flood ways [c] (dry.erase c)).1.mergeSort fun a b => !Cell.before b a := by
        rw [List.mem_mergeSort, flood]
        exact List.mem_cons_self
      rw [if_pos hc]
      apply List.Pairwise.cons _ (ih hsorted hrest)
      intro h hh a ha b hb
      rw [head_of_least (islandsFrom_sorted ways _ dry _ hisland) hstart (fun d hd hne =>
        hfirst d (hbehind d (dry_of_mem_islandsFrom hisland hd) hne)) a ha]
      exact hfirst b (hrest b (dry_of_mem_islandsFrom hh (List.mem_of_mem_head? hb)))
    · rw [if_neg hc]
      apply ih hsorted
      intro d hd
      exact (List.mem_cons.mp (hdry d hd)).resolve_left fun h => hc (h ▸ hd)

/-- Without ways every dry cell is an island. -/
theorem islandsFrom_of_no_ways (hways : ∀ c, ways c = []) {cells : List Cell}
    (hn : cells.Nodup) {dry : Std.HashSet Cell} (hdry : ∀ c ∈ cells, c ∈ dry) :
    islandsFrom ways cells dry = cells.map fun c => [c] := by
  induction cells generalizing dry with
  | nil => rfl
  | cons c cells ih =>
    obtain ⟨hc, hn⟩ := List.nodup_cons.mp hn
    obtain ⟨hcdry, hrest⟩ := List.forall_mem_cons.mp hdry
    have hflood : flood ways [c] (dry.erase c) = ([c], dry.erase c) := by
      rw [flood, hways, List.foldl_nil, flood]
    rw [islandsFrom, if_pos hcdry, hflood, List.map_cons]
    dsimp only
    rw [List.mergeSort_singleton]
    congr 1
    apply ih hn
    intro d hd
    rw [Std.HashSet.mem_erase]
    exact ⟨beq_eq_false_iff_ne.mpr fun h => hc (h ▸ hd), hrest d hd⟩

end Reading

variable {α : Type} [Scalar α]

theorem islands_inReadingOrder (g : Grid α) (s : GridSettings α) :
    InReadingOrder (g.islands s) where
  within := by
    intro island hi
    have hn := (List.nodup_flatten.mp (g.nodup_flatten_islands s)).1 island hi
    apply ((g.islands_sorted s island hi).and (List.nodup_iff_pairwise_ne.mp hn)).imp
    rintro a b ⟨hba, hne⟩
    exact Cell.before_of_ne (by simpa using hba) hne
  across := by
    apply islandsFrom_across ((cellsOf_sorted _ _).filter _)
    intro c hc
    rwa [Std.HashSet.mem_ofList, List.contains_iff_mem] at hc

variable [Scalar.Ordered α]

/-- Where the threshold is no number, no cell is below it and none reaches it. -/
theorem islands_of_no_threshold (g : Grid α) {s : GridSettings α}
    (hmin : ¬ s.minCellEnergy ≤ s.minCellEnergy) : g.islands s = g.cells.map fun c => [c] := by
  have hdry : g.cells.filter (g.isDry s) = g.cells := by
    rw [List.filter_eq_self]
    intro c _
    rw [isDry, Bool.not_eq_true', decide_eq_false_iff_not]
    exact fun h => hmin (Scalar.Ordered.number_of_lt h)
  have hways : ∀ c, g.ways s c = [] := by
    intro c
    rw [List.eq_nil_iff_forall_not_mem]
    intro d hd
    exact hmin (Scalar.Ordered.le_self_left (mem_ways.mp hd).2.2)
  rw [islands, hdry]
  apply islandsFrom_of_no_ways hways (nodup_cellsOf _ _)
  intro c hc
  rwa [Std.HashSet.mem_ofList, List.contains_iff_mem]

/-- The islands cut the land into its connected parts, no cell twice, and read in order. Every
flood of them comes to its end with as many turns as it floods cells, and no fewer. Where the
threshold is no number each cell is an island. -/
theorem islands_partition_land {g : Grid α} (hnumbers : g.Numbers) (s : GridSettings α) :
    (s.minCellEnergy ≤ s.minCellEnergy →
      IsComponents (fun a b => Cell.isNeighbor s.corners a b = true) (g.land s) (g.islands s)) ∧
    (¬ s.minCellEnergy ≤ s.minCellEnergy → g.islands s = g.cells.map fun c => [c]) ∧
    (g.islands s).flatten.Nodup ∧ InReadingOrder (g.islands s) ∧
    ∀ edge dry, (flood (g.ways s) edge dry).1.length ≤ edge.length + dry.size ∧
      (turn (g.ways s))^[(flood (g.ways s) edge dry).1.length] (edge, dry) =
        ([], (flood (g.ways s) edge dry).2) ∧
      ∀ k < (flood (g.ways s) edge dry).1.length,
        ((turn (g.ways s))^[k] (edge, dry)).1 ≠ [] := by
  refine ⟨?_, g.islands_of_no_threshold, g.nodup_flatten_islands s, g.islands_inReadingOrder s, ?_⟩
  · intro hmin
    have hdry := dry_eq_land hnumbers hmin
    rw [← hdry]
    apply g.islands_neighbors s
    intro c hc h
    exact (mem_land.mp (hdry ▸ List.mem_filter.mpr ⟨hc, h⟩)).2
  · intro edge dry
    have hlength := length_flood (g.ways s) edge dry
    exact ⟨by omega, iterate_turn (g.ways s) edge dry, edge_ne_nil (g.ways s) edge dry⟩

theorem cornered_islands_partition_land :
    cornered.Numbers ∧
      IsComponents (fun a b => Cell.isNeighbor false a b = true) (cornered.land bySides)
        (cornered.islands bySides) ∧
      InReadingOrder (cornered.islands bySides) := by
  have hislands := islands_partition_land numbers_cornered bySides
  exact ⟨numbers_cornered, hislands.1 (by decide +kernel), hislands.2.2.2.1⟩

def oneCell : Grid Float32 := ⟨1, 1, #[50]⟩

def noThreshold : GridSettings Float32 := { bySides with minCellEnergy := 0 / 0 }

/-- The cell does not reach the threshold, and is an island. -/
theorem cell_without_threshold :
    oneCell.Numbers ∧ oneCell.islands noThreshold = [[(0, 0)]] ∧
      ¬ IsComponents (fun a b => Cell.isNeighbor noThreshold.corners a b = true)
        (oneCell.land noThreshold) (oneCell.islands noThreshold) := by
  have hislands : oneCell.islands noThreshold = [[(0, 0)]] :=
    oneCell.islands_of_no_threshold (by decide +kernel)
  refine ⟨by unfold Numbers; decide +kernel, hislands, ?_⟩
  intro hcomponents
  have hland : oneCell.land noThreshold = [] := by decide +kernel
  have hmem := hcomponents.mem_items (g := [(0, 0)]) (a := (0, 0)) (by simp [hislands]) (by simp)
  rw [hland] at hmem
  cases hmem

end Grid

end ShowerTrack
