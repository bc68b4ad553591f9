import ShowerTrack.Proofs.GridClusters

/-!
# Summits

A cell outranks the less energetic ones, and those as energetic that come later. Every component
of the cells above the threshold has a summit, which outranks all the others. It is the peak of a
cluster unless a cell of another component, next to it by a corner, outranks it; so no component
by sides and corners is lost.
-/

set_option autoImplicit false

namespace ShowerTrack

namespace Grid

variable {α : Type} [Scalar α]

def outranks (g : Grid α) (c d : Cell) : Bool :=
  g.energy d < g.energy c || (Scalar.same (g.energy d) (g.energy c) && c.before d)

def Numbers (g : Grid α) : Prop := ∀ c ∈ g.cells, g.energy c ≤ g.energy c

def land (g : Grid α) (s : GridSettings α) : List Cell :=
  g.cells.filter fun c => s.minCellEnergy ≤ g.energy c

def Together (g : Grid α) (s : GridSettings α) (corners : Bool) : Cell → Cell → Prop :=
  Joined (fun a b => Cell.isNeighbor corners a b = true) (g.land s)

/-- A cell that is energetic enough for a center, and outranks its neighbors by side or corner as
far as they lie in its component. -/
structure IsCrest (g : Grid α) (s : GridSettings α) (corners : Bool) (c : Cell) : Prop where
  high : s.minCenterEnergy ≤ g.energy c
  outranks : ∀ d, g.Together s corners c d → Cell.isNeighbor true c d = true →
    g.outranks c d = true

theorem isPeak_eq_outranks (g : Grid α) (s : GridSettings α) (c : Cell) :
    g.isPeak s c = (!(g.energy c < s.minCenterEnergy) && (g.around c).all (g.outranks c)) := rfl

theorem mem_land {g : Grid α} {s : GridSettings α} {c : Cell} :
    c ∈ g.land s ↔ c ∈ g.cells ∧ s.minCellEnergy ≤ g.energy c := by
  rw [land, List.mem_filter, decide_eq_true_eq]

theorem Together.mem_land {g : Grid α} {s : GridSettings α} {corners : Bool} {a b : Cell}
    (h : g.Together s corners a b) (ha : a ∈ g.land s) : b ∈ g.land s :=
  h.mem_of_closed (fun _ _ _ link => link.2.1) ha

/-- Corners connect all neighbors on the land. -/
theorem together_corners {g : Grid α} {s : GridSettings α} {a b : Cell} (ha : a ∈ g.land s)
    (hb : b ∈ g.land s) (h : Cell.isNeighbor true a b = true) : g.Together s true a b :=
  Linked.joined ⟨ha, hb, .inl h⟩

section Peaks

variable (g : Grid α) (s : GridSettings α) (profile : α → α → α)

/-- Every peak of an island gives one cluster. -/
theorem map_peak_split (island : List Cell) :
    (g.split s profile island).map (·.peak) = island.filter (g.isPeak s) := by
  rcases g.split_cases s profile island with ⟨hnil, hsplit⟩ | ⟨peak, hone, hsplit⟩ | ⟨_, hsplit⟩
  · rw [hsplit, hnil]
    rfl
  · rw [hsplit, hone]
    rfl
  · have hpeak : ∀ rows : List (Cell × Array α), ∀ x : Cell × Nat,
        (g.sharedCluster s rows x.1 x.2).peak = x.1 := fun _ _ => rfl
    rw [hsplit, List.map_map]
    simp only [Function.comp_def, hpeak, List.zipIdx_map_fst]

theorem map_peak_clusters :
    (g.clusters s profile).map (·.peak) = (g.islands s).flatten.filter (g.isPeak s) := by
  rw [clusters, List.map_flatMap, List.filter_flatten, List.flatMap_def]
  simp only [map_peak_split]

theorem exists_cluster_iff (c : Cell) : (∃ raw ∈ g.clusters s profile, raw.peak = c) ↔
    c ∈ g.cells.filter (g.isDry s) ∧ g.isPeak s c = true := by
  rw [← List.mem_map, map_peak_clusters, List.mem_filter, (g.flatten_islands_perm s).mem_iff]

end Peaks

section Ranks

variable [Scalar.Ordered α] {g : Grid α} {a b c : Cell}

theorem outranks_iff : g.outranks a b = true ↔
    g.energy b ≤ g.energy a ∧ (g.energy a ≤ g.energy b → a.before b = true) := by
  rw [outranks, Bool.or_eq_true, Bool.and_eq_true, decide_eq_true_eq, Scalar.same,
    Bool.and_eq_true, decide_eq_true_eq, decide_eq_true_eq, Scalar.Ordered.lt_iff]
  constructor
  · rintro (⟨hle, hnot⟩ | ⟨⟨hle, _⟩, hbefore⟩)
    · exact ⟨hle, fun h => absurd h hnot⟩
    · exact ⟨hle, fun _ => hbefore⟩
  · rintro ⟨hle, hbefore⟩
    by_cases h : g.energy a ≤ g.energy b
    · exact .inr ⟨⟨hle, h⟩, hbefore h⟩
    · exact .inl ⟨hle, h⟩

theorem outranks_trans (hab : g.outranks a b = true) (hbc : g.outranks b c = true) :
    g.outranks a c = true := by
  rw [outranks_iff] at hab hbc ⊢
  refine ⟨Scalar.Ordered.le_trans hbc.1 hab.1, ?_⟩
  intro hac
  have h1 := hab.2 (Scalar.Ordered.le_trans hac hbc.1)
  have h2 := hbc.2 (Scalar.Ordered.le_trans hab.1 hac)
  rw [Cell.before_iff] at h1 h2 ⊢
  omega

theorem outranks_total (ha : g.energy a ≤ g.energy a) (hb : g.energy b ≤ g.energy b)
    (hne : a ≠ b) : g.outranks a b = true ∨ g.outranks b a = true := by
  have horder : a.before b = true ∨ b.before a = true := by
    rw [Cell.before_iff, Cell.before_iff]
    rw [ne_eq, Prod.ext_iff] at hne
    omega
  rw [outranks_iff, outranks_iff]
  by_cases hab : g.energy a ≤ g.energy b
  · by_cases hba : g.energy b ≤ g.energy a
    · exact horder.imp (fun h => ⟨hba, fun _ => h⟩) fun h => ⟨hab, fun _ => h⟩
    · exact .inr ⟨hab, fun h => absurd h hba⟩
  · exact .inl ⟨(Scalar.Ordered.le_total ha hb).resolve_left hab, fun h => absurd h hab⟩

end Ranks

section Components

variable [Scalar.Ordered α] {g : Grid α} {s : GridSettings α} (hnumbers : g.Numbers)

include hnumbers

theorem dry_eq_land (hmin : s.minCellEnergy ≤ s.minCellEnergy) :
    g.cells.filter (g.isDry s) = g.land s := by
  apply List.filter_congr
  intro c hc
  rw [isDry, ← decide_not, decide_eq_decide]
  exact ⟨Scalar.Ordered.le_of_not_lt (hnumbers c hc) hmin, Scalar.Ordered.not_lt_of_le⟩

/-- The island of a cell is its component. -/
theorem exists_island (corners : Bool) {e : Cell} (he : e ∈ g.land s) :
    ∃ island : List Cell, ∀ c, c ∈ island ↔ g.Together s corners e c := by
  have hmin := Scalar.Ordered.le_self_left (mem_land.mp he).2
  have hdry := dry_eq_land hnumbers (s := { s with corners }) hmin
  have hislands := g.islands_neighbors { s with corners } fun c hc h =>
    (mem_land.mp (hdry ▸ List.mem_filter.mpr ⟨hc, h⟩)).2
  rw [hdry] at hislands
  obtain ⟨island, hisland, hmem⟩ := hislands.exists_group he
  exact ⟨island, hislands.classes island hisland e hmem⟩

/-- The summit of a component with an energetic cell is a crest. -/
theorem exists_summit (corners : Bool) {e : Cell} (he : e ∈ g.land s)
    (henergy : s.minCenterEnergy ≤ g.energy e) :
    ∃ m, g.Together s corners e m ∧ g.IsCrest s corners m ∧
      ∀ c, g.Together s corners e c → c ≠ m → g.outranks m c = true := by
  obtain ⟨island, hisland⟩ := exists_island hnumbers corners he
  have hself := (hisland e).mpr (.refl e)
  have hisnumber : ∀ c ∈ island, g.energy c ≤ g.energy c := fun c hc =>
    hnumbers c (mem_land.mp (((hisland c).mp hc).mem_land he)).1
  obtain ⟨m, hm, hmax⟩ := exists_first (r := fun a b => g.outranks a b = true)
    (List.ne_nil_of_mem hself) (fun _ _ _ => outranks_trans)
    fun a ha b hb => outranks_total (hisnumber a ha) (hisnumber b hb)
  have hem := (hisland m).mp hm
  have hsummit : ∀ c, g.Together s corners e c → c ≠ m → g.outranks m c = true :=
    fun c hc => hmax c ((hisland c).mpr hc)
  refine ⟨m, hem, ⟨?_, ?_⟩, hsummit⟩
  · by_cases hne : e = m
    · rwa [← hne]
    · exact Scalar.Ordered.le_trans henergy (outranks_iff.mp (hmax e hself hne)).1
  · intro d hmd hnear
    refine hsummit d (hem.trans hmd) ?_
    rintro rfl
    simp [Cell.isNeighbor_iff] at hnear

/-- A crest is a peak unless a neighbor outside its component outranks it. -/
theorem isPeak_iff_isCrest (corners : Bool) {c : Cell} (hc : c ∈ g.land s)
    (hcenter : s.minCenterEnergy ≤ s.minCenterEnergy) :
    g.isPeak s c = true ↔ g.IsCrest s corners c ∧
      ∀ d ∈ g.land s, Cell.isNeighbor true c d = true → ¬ g.Together s corners c d →
        g.outranks c d = true := by
  obtain ⟨hcell, hland⟩ := mem_land.mp hc
  rw [isPeak_eq_outranks, Bool.and_eq_true, Bool.not_eq_true', decide_eq_false_iff_not,
    List.all_eq_true]
  constructor
  · rintro ⟨hhigh, haround⟩
    have houtranks : ∀ d ∈ g.land s, Cell.isNeighbor true c d = true → g.outranks c d = true :=
      fun d hd hnear => haround d (mem_around.mpr ⟨mem_cells.mp (mem_land.mp hd).1, hnear⟩)
    exact ⟨⟨Scalar.Ordered.le_of_not_lt (hnumbers c hcell) hcenter hhigh,
      fun d hcd => houtranks d (hcd.mem_land hc)⟩, fun d hd hnear _ => houtranks d hd hnear⟩
  · rintro ⟨hcrest, houtside⟩
    refine ⟨Scalar.Ordered.not_lt_of_le hcrest.high, ?_⟩
    intro d hd
    obtain ⟨hcontains, hnear⟩ := mem_around.mp hd
    by_cases hdl : d ∈ g.land s
    · by_cases hcd : g.Together s corners c d
      · exact hcrest.outranks d hcd hnear
      · exact houtside d hdl hnear hcd
    · -- a cell below the threshold yields to any on the land
      have hdcell := mem_cells.mpr hcontains
      have hbelow : ¬ s.minCellEnergy ≤ g.energy d := fun h => hdl (mem_land.mpr ⟨hdcell, h⟩)
      have hmin := Scalar.Ordered.le_self_left hland
      have hlow := (Scalar.Ordered.le_total (hnumbers d hdcell) hmin).resolve_right hbelow
      exact outranks_iff.mpr ⟨Scalar.Ordered.le_trans hlow hland,
        fun h => absurd (Scalar.Ordered.le_trans hland h) hbelow⟩

/-- The crests of a component with an energetic cell, among them its summit, are the peaks of its
clusters, but for those that a cell of another component outranks from the next corner. Such a
cell there is only without the connection by corners, and that one always finds a cluster. -/
theorem crests_head_clusters (profile : α → α → α) {e : Cell} (he : e ∈ g.land s)
    (henergy : s.minCenterEnergy ≤ g.energy e) :
    (∃ m, g.Together s s.corners e m ∧ g.IsCrest s s.corners m ∧
      ∀ c, g.Together s s.corners e c → c ≠ m → g.outranks m c = true) ∧
    (∀ m, g.Together s s.corners e m → ((∃ raw ∈ g.clusters s profile, raw.peak = m) ↔
      g.IsCrest s s.corners m ∧ ∀ d ∈ g.land s, Cell.isNeighbor true m d = true →
        ¬ g.Together s s.corners m d → g.outranks m d = true)) ∧
    ∃ raw ∈ g.clusters s profile, g.Together s true e raw.peak := by
  have hcenter := Scalar.Ordered.le_self_left henergy
  have hdry := dry_eq_land hnumbers (Scalar.Ordered.le_self_left (mem_land.mp he).2)
  have hpeaks : ∀ corners m, g.Together s corners e m →
      ((∃ raw ∈ g.clusters s profile, raw.peak = m) ↔ g.IsCrest s corners m ∧
        ∀ d ∈ g.land s, Cell.isNeighbor true m d = true → ¬ g.Together s corners m d →
          g.outranks m d = true) := by
    intro corners m hm
    have hland := hm.mem_land he
    rw [exists_cluster_iff, hdry, ← isPeak_iff_isCrest hnumbers corners hland hcenter]
    exact and_iff_right hland
  refine ⟨exists_summit hnumbers s.corners he henergy, hpeaks s.corners, ?_⟩
  obtain ⟨m, hm, hcrest, _⟩ := exists_summit hnumbers true he henergy
  have hinside : ∀ d ∈ g.land s, Cell.isNeighbor true m d = true → ¬ g.Together s true m d →
      g.outranks m d = true :=
    fun d hd hnear hapart => absurd (together_corners (hm.mem_land he) hd hnear) hapart
  obtain ⟨raw, hraw, rfl⟩ := (hpeaks true m hm).mpr ⟨hcrest, hinside⟩
  exact ⟨raw, hraw, hm⟩

end Components

/-- Two energetic cells that touch by a corner. -/
def cornered : Grid Float32 := ⟨2, 2, #[200, 0, 0, 100]⟩

def bySides : GridSettings Float32 := ⟨1, 10, false, 6, 0.01⟩

theorem numbers_cornered : cornered.Numbers := by
  unfold Numbers
  decide +kernel

theorem cornered_crests_head_clusters :
    cornered.Numbers ∧ (1, 1) ∈ cornered.land bySides ∧
      bySides.minCenterEnergy ≤ cornered.energy (1, 1) ∧
      (∃ m, cornered.Together bySides false (1, 1) m ∧ cornered.IsCrest bySides false m ∧
        ∀ c, cornered.Together bySides false (1, 1) c → c ≠ m → cornered.outranks m c = true) ∧
      ∃ raw ∈ cornered.clusters bySides fun _ _ => 0,
        cornered.Together bySides true (1, 1) raw.peak := by
  have hland : (1, 1) ∈ cornered.land bySides := by decide +kernel
  have henergy : bySides.minCenterEnergy ≤ cornered.energy (1, 1) := by decide +kernel
  have hcrests := crests_head_clusters numbers_cornered (fun _ _ => 0) hland henergy
  exact ⟨numbers_cornered, hland, henergy, hcrests.1, hcrests.2.2⟩

/-- By sides alone the second cell is a component of its own, and gives no cluster. -/
theorem cornered_component_lost :
    cornered.Numbers ∧ (1, 1) ∈ cornered.land bySides ∧
      bySides.minCenterEnergy ≤ cornered.energy (1, 1) ∧
      ¬ ∃ raw ∈ cornered.clusters bySides fun _ _ => 0,
        cornered.Together bySides bySides.corners (1, 1) raw.peak := by
  refine ⟨numbers_cornered, by decide +kernel, by decide +kernel, ?_⟩
  rintro ⟨raw, hraw, htogether⟩
  have halone : ∀ c ∈ cornered.land bySides, ¬ (Cell.isNeighbor false (1, 1) c = true ∨
      Cell.isNeighbor false c (1, 1) = true) := by
    decide +kernel
  have hpeak : raw.peak = (1, 1) := by
    apply htogether.mem_of_closed (p := (· = (1, 1))) _ rfl
    rintro a b rfl link
    exact absurd link.2.2 (halone b link.2.1)
  have hno : cornered.isPeak bySides (1, 1) = false := by decide +kernel
  have hyes := ((exists_cluster_iff _ _ _ _).mp ⟨raw, hraw, hpeak⟩).2
  rw [hno] at hyes
  cases hyes

end Grid

end ShowerTrack
