import Mathlib.Data.List.SplitBy
import ShowerTrack.Calorimeter.Grid
import ShowerTrack.Calorimeter.Island
import ShowerTrack.Proofs.Connected

/-!
# Column chains

Sorted by column and row, the hits of a sector fall into chains that fill an interval of rows of
one column. Two chains touch exactly when some cell of the one is a neighbor of some cell of the
other, and no chain is far from one that the search passes over. The groups of a sector are
therefore the components of its cells.
-/

set_option autoImplicit false

namespace ShowerTrack

theorem Cell.isNeighbor_comm (corners : Bool) (a b : Cell) :
    Cell.isNeighbor corners a b = Cell.isNeighbor corners b a := by
  simp [isNeighbor, chebyshev, manhattan, rowDistance, columnDistance, Nat.add_comm]

theorem Cell.isNeighbor_iff (corners : Bool) (a b : Cell) :
    Cell.isNeighbor corners a b = true ↔
      (a.1 ≠ b.1 ∨ a.2 ≠ b.2) ∧ a.1 ≤ b.1 + 1 ∧ b.1 ≤ a.1 + 1 ∧ a.2 ≤ b.2 + 1 ∧ b.2 ≤ a.2 + 1 ∧
        (corners = false → a.1 = b.1 ∨ a.2 = b.2) := by
  cases corners
  · simp only [isNeighbor, manhattan, rowDistance, columnDistance, Bool.false_eq_true, if_false,
      beq_iff_eq, forall_const]
    omega
  · simp only [isNeighbor, chebyshev, rowDistance, columnDistance, if_true, beq_iff_eq, Nat.max_def]
    split_ifs <;> simp <;> omega

namespace Island

variable {α : Type}

def Precedes (a b : BlockHit α) : Prop :=
  a.site.column < b.site.column ∨ a.site.column = b.site.column ∧ a.site.row < b.site.row

theorem columnOrder_iff (a b : BlockHit α) : columnOrder a b = true ↔
    a.site.column < b.site.column ∨ a.site.column = b.site.column ∧ a.site.row ≤ b.site.row := by
  simp [columnOrder]

theorem columnOrder_trans (a b c : BlockHit α) (hab : columnOrder a b = true)
    (hbc : columnOrder b c = true) : columnOrder a c = true := by
  rw [columnOrder_iff] at hab hbc ⊢
  omega

theorem columnOrder_total (a b : BlockHit α) : (columnOrder a b || columnOrder b a) = true := by
  rw [Bool.or_eq_true, columnOrder_iff, columnOrder_iff]
  omega

theorem continues_iff (a b : BlockHit α) : continues a b = true ↔
    a.site.column = b.site.column ∧ b.site.row = a.site.row + 1 := by
  simp [continues]

def inColumns (hits : List (BlockHit α)) : List (BlockHit α) := hits.mergeSort columnOrder

def runs (hits : List (BlockHit α)) : List (List (BlockHit α)) :=
  (inColumns hits).splitBy continues

theorem inColumns_precedes {hits : List (BlockHit α)}
    (hn : (hits.map (·.site.cell)).Nodup) : (inColumns hits).Pairwise Precedes := by
  have hsorted : (inColumns hits).Pairwise fun a b => columnOrder a b = true :=
    List.pairwise_mergeSort columnOrder_trans columnOrder_total hits
  have hdistinct : (inColumns hits).Pairwise fun a b => a.site.cell ≠ b.site.cell := by
    rw [← List.pairwise_map]
    exact (((List.mergeSort_perm hits columnOrder).map _).nodup_iff).mpr hn
  apply hsorted.imp₂ _ hdistinct
  intro a b hab hne
  rw [columnOrder_iff] at hab
  rw [Ne, Site.cell, Site.cell, Prod.mk.injEq] at hne
  unfold Precedes
  omega

/-- Nothing lies between a cell and the next one of its column, so a run only ends where no
later hit continues it. -/
theorem splitBy_apart {rs : List (List (BlockHit α))} (sorted : rs.flatten.Pairwise Precedes)
    (bounds : rs.IsChain fun g h => ∃ hg hh, continues (g.getLast hg) (h.head hh) = false) :
    rs.Pairwise fun g h => ∀ a ∈ g, ∀ b ∈ h, ¬ (continues a b = true ∨ continues b a = true) := by
  induction rs with
  | nil => exact .nil
  | cons g rest ih =>
    rw [List.flatten_cons, List.pairwise_append] at sorted
    obtain ⟨hsorted, hrest, hcross⟩ := sorted
    refine List.pairwise_cons.mpr ⟨?_, ih hrest bounds.tail⟩
    intro h hh a ha b hb hab
    match rest, bounds with
    | h₀ :: rest', .cons_cons ⟨hg, hh₀, hbound⟩ _ =>
      have hbflat : b ∈ (h₀ :: rest').flatten := List.mem_flatten.mpr ⟨h, hh, hb⟩
      have hhead : h₀.head hh₀ ∈ (h₀ :: rest').flatten :=
        List.mem_flatten.mpr ⟨h₀, List.mem_cons_self, List.head_mem hh₀⟩
      have hlast : a = g.getLast hg ∨ Precedes a (g.getLast hg) := by
        rw [← List.dropLast_append_getLast hg, List.mem_append, List.mem_singleton] at ha
        rw [← List.dropLast_append_getLast hg, List.pairwise_append] at hsorted
        exact ha.symm.imp_right fun ha => hsorted.2.2 a ha _ (List.mem_singleton_self _)
      have hfirst : b = h₀.head hh₀ ∨ Precedes (h₀.head hh₀) b := by
        rw [← List.cons_head_tail hh₀, List.flatten_cons, List.cons_append, List.pairwise_cons]
          at hrest
        rw [← List.cons_head_tail hh₀, List.flatten_cons, List.cons_append, List.mem_cons]
          at hbflat
        exact hbflat.imp_right fun hb => hrest.1 b hb
      have hlasthead := hcross _ (List.getLast_mem hg) _ hhead
      have hcontinues : ¬ continues (g.getLast hg) (h₀.head hh₀) = true := by simp [hbound]
      rw [continues_iff] at hcontinues
      simp only [continues_iff] at hab
      unfold Precedes at hlast hfirst hlasthead
      rcases hlast with rfl | hlast <;> rcases hfirst with rfl | hfirst <;> omega

theorem runs_joined {g : List (BlockHit α)} (items : List (BlockHit α)) (hsub : g ⊆ items)
    (hg : g.IsChain fun a b => continues a b = true) :
    ∀ a ∈ g, ∀ b ∈ g, Joined (fun a b => continues a b = true) items a b := by
  induction g with
  | nil => intro a ha; exact absurd ha List.not_mem_nil
  | cons h t ih =>
    have htail := ih (fun a ha => hsub (List.mem_cons_of_mem h ha)) hg.tail
    have hhead : ∀ b ∈ t, Joined (fun a b => continues a b = true) items h b := by
      intro b hb
      match t, hg with
      | c :: t', .cons_cons hc _ =>
        have link : Linked (fun a b => continues a b = true) items h c :=
          ⟨hsub (by simp), hsub (by simp), .inl hc⟩
        exact link.joined.trans (htail c (by simp) b hb)
    intro a ha b hb
    rcases List.mem_cons.mp ha with rfl | ha' <;> rcases List.mem_cons.mp hb with rfl | hb'
    · exact Joined.refl _
    · exact hhead b hb'
    · exact (hhead a ha').symm
    · exact htail a ha' b hb'

theorem runs_components {hits : List (BlockHit α)} (hn : (hits.map (·.site.cell)).Nodup) :
    IsComponents (fun a b => continues a b = true) hits (runs hits) := by
  have hflat : (runs hits).flatten = inColumns hits := List.flatten_splitBy _ _
  have hperm : (runs hits).flatten.Perm hits := by
    rw [hflat]
    exact List.mergeSort_perm hits columnOrder
  apply IsComponents.of_apart hperm
  · exact List.nil_notMem_splitBy _ _
  · intro g hg
    apply runs_joined hits _ (List.isChain_of_mem_splitBy hg)
    intro a ha
    exact hperm.subset (List.mem_flatten.mpr ⟨g, hg, ha⟩)
  · apply splitBy_apart
    · rw [hflat]
      exact inColumns_precedes hn
    · exact List.isChain_getLast_head_splitBy _ _

structure Chain.Fills (c : Chain α) : Prop where
  column : ∀ h ∈ c.hits, h.site.column = c.column
  rows : ∀ r, (∃ h ∈ c.hits, h.site.row = r) ↔ c.firstRow ≤ r ∧ r ≤ c.lastRow
  nonempty : c.hits ≠ []

theorem Chain.Fills.ordered {c : Chain α} (hc : c.Fills) : c.firstRow ≤ c.lastRow := by
  obtain ⟨h, hh⟩ := List.exists_mem_of_ne_nil _ hc.nonempty
  have := (hc.rows h.site.row).mp ⟨h, hh, rfl⟩
  omega

theorem run_fills (h : BlockHit α) (t : List (BlockHit α))
    (hrun : (h :: t).IsChain fun a b => continues a b = true) :
    (⟨h.site.column, h.site.row, (t.getLastD h).site.row, h :: t⟩ : Chain α).Fills := by
  induction t generalizing h with
  | nil => exact ⟨by simp, fun r => by simp; omega, by simp⟩
  | cons b t ih =>
    match hrun with
    | .cons_cons hb htail =>
      obtain ⟨hcolumn, hrow⟩ := (continues_iff h b).mp hb
      have hfills := ih b htail
      refine ⟨?_, ?_, by simp⟩
      · intro x hx
        rcases List.mem_cons.mp hx with rfl | hx
        · rfl
        · exact (hfills.column x hx).trans hcolumn.symm
      · intro r
        have hrows := hfills.rows r
        have hle := hfills.ordered
        simp only at hrows hle
        show (∃ x ∈ h :: b :: t, x.site.row = r) ↔
          h.site.row ≤ r ∧ r ≤ ((b :: t).getLastD h).site.row
        rw [List.exists_mem_cons_iff, hrows, List.getLastD_cons]
        omega

theorem map_hits_ofRun {rs : List (List (BlockHit α))} (h : [] ∉ rs) :
    (rs.filterMap Chain.ofRun?).map (·.hits) = rs := by
  induction rs with
  | nil => rfl
  | cons g rs ih =>
    match g, h with
    | [], h => exact absurd List.mem_cons_self h
    | x :: t, h =>
      have hx : Chain.ofRun? (x :: t) = some ⟨_, _, _, x :: t⟩ := rfl
      rw [List.filterMap_cons_some hx, List.map_cons]
      rw [ih fun hnil => h (List.mem_cons_of_mem _ hnil)]

theorem map_hits_chains (hits : List (BlockHit α)) : (chains hits).map (·.hits) = runs hits :=
  map_hits_ofRun (List.nil_notMem_splitBy _ _)

theorem fills_of_mem_chains {hits : List (BlockHit α)} {c : Chain α} (hc : c ∈ chains hits) :
    c.Fills := by
  obtain ⟨run, hrun, hof⟩ := List.mem_filterMap.mp hc
  match run, hof with
  | h :: t, hof =>
    obtain rfl := Option.some.inj hof
    exact run_fills h t (List.isChain_of_mem_splitBy hrun)

theorem chains_components {hits : List (BlockHit α)} (hn : (hits.map (·.site.cell)).Nodup) :
    IsComponents (fun a b => continues a b = true) hits ((chains hits).map (·.hits)) := by
  rw [map_hits_chains]
  exact runs_components hn

theorem chains_sorted {hits : List (BlockHit α)} (hn : (hits.map (·.site.cell)).Nodup) :
    (chains hits).Pairwise fun A B => A.column ≤ B.column := by
  have hflat : ((chains hits).map (·.hits)).flatten.Pairwise Precedes := by
    rw [map_hits_chains, runs, List.flatten_splitBy]
    exact inColumns_precedes hn
  have hcross := (List.pairwise_flatten.mp hflat).2
  rw [List.pairwise_map] at hcross
  apply hcross.imp_of_mem
  intro A B hA hB hAB
  have hfA := fills_of_mem_chains hA
  have hfB := fills_of_mem_chains hB
  obtain ⟨a, ha⟩ := List.exists_mem_of_ne_nil _ hfA.nonempty
  obtain ⟨b, hb⟩ := List.exists_mem_of_ne_nil _ hfB.nonempty
  have hab := hAB a ha b hb
  rw [Precedes, hfA.column a ha, hfB.column b hb] at hab
  omega

theorem touches_iff (corners : Bool) (A B : Chain α) : A.touches corners B = true ↔
    (A.column = B.column + 1 ∨ B.column = A.column + 1) ∧
      A.firstRow ≤ B.lastRow + (if corners then 1 else 0) ∧
      B.firstRow ≤ A.lastRow + (if corners then 1 else 0) := by
  simp [Chain.touches]

theorem touches_comm (corners : Bool) (A B : Chain α) :
    A.touches corners B = B.touches corners A := by
  rw [Bool.eq_iff_iff, touches_iff, touches_iff]
  omega

def neighboring (corners : Bool) (a b : BlockHit α) : Prop :=
  Cell.isNeighbor corners a.site.cell b.site.cell = true

theorem neighboring_iff (corners : Bool) (a b : BlockHit α) : neighboring corners a b ↔
    (a.site.row ≠ b.site.row ∨ a.site.column ≠ b.site.column) ∧
      a.site.row ≤ b.site.row + 1 ∧ b.site.row ≤ a.site.row + 1 ∧
      a.site.column ≤ b.site.column + 1 ∧ b.site.column ≤ a.site.column + 1 ∧
      (corners = false → a.site.row = b.site.row ∨ a.site.column = b.site.column) :=
  Cell.isNeighbor_iff corners a.site.cell b.site.cell

theorem neighboring_symm {corners : Bool} {a b : BlockHit α} (h : neighboring corners a b) :
    neighboring corners b a := by
  rw [neighboring, Cell.isNeighbor_comm]
  exact h

/-- Touching chains have neighboring hits: in the row where the later of the two starts, or in
the nearest row of a chain that does not reach it. -/
theorem exists_neighboring_of_touches {corners : Bool} {A B : Chain α} (hA : A.Fills)
    (hB : B.Fills) (h : A.touches corners B = true) :
    ∃ a ∈ A.hits, ∃ b ∈ B.hits, neighboring corners a b := by
  rw [touches_iff] at h
  have hleA := hA.ordered
  have hleB := hB.ordered
  obtain ⟨a, ha, hra⟩ := (hA.rows (min (max A.firstRow B.firstRow) A.lastRow)).mpr (by omega)
  obtain ⟨b, hb, hrb⟩ := (hB.rows (min (max A.firstRow B.firstRow) B.lastRow)).mpr (by omega)
  refine ⟨a, ha, b, hb, ?_⟩
  rw [neighboring_iff, hra, hrb, hA.column a ha, hB.column b hb]
  cases corners <;> simp at h ⊢ <;> omega

/-- Neighboring hits of one column continue a chain; those of two columns make their chains
touch. -/
theorem touches_of_neighboring {corners : Bool} {A B : Chain α} (hA : A.Fills) (hB : B.Fills)
    {a b : BlockHit α} (ha : a ∈ A.hits) (hb : b ∈ B.hits)
    (hab : ¬ (continues a b = true ∨ continues b a = true)) (h : neighboring corners a b) :
    A.touches corners B = true := by
  have hra := (hA.rows a.site.row).mp ⟨a, ha, rfl⟩
  have hrb := (hB.rows b.site.row).mp ⟨b, hb, rfl⟩
  have hca := hA.column a ha
  have hcb := hB.column b hb
  rw [continues_iff, continues_iff] at hab
  rw [neighboring_iff] at h
  rw [touches_iff]
  cases corners <;> simp at h ⊢ <;> omega

/-- The groups of a sector are the components of its hits under the neighborhood of cells. -/
theorem sectorGroups_components (corners : Bool) {hits : List (BlockHit α)}
    (hn : (hits.map (·.site.cell)).Nodup) :
    IsComponents (neighboring corners) hits (sectorGroups corners hits) := by
  have hchains := chains_components hn
  have hnodup := hchains.nodup_blocks (List.Nodup.of_map _ hn)
  have hparts : IsComponents (InOrder (Chain.touches corners) (chains hits)) (chains hits)
      (connectedWithin Chain.reaches (Chain.touches corners) (chains hits)) := by
    apply connectedWithin_components hnodup (chains_sorted hn)
    intro A B C hAB hCB
    have hcolumn : C.column ≤ B.column := by
      rcases hCB with rfl | hle
      · exact le_refl _
      · exact hle
    rw [touches_iff] at hAB
    simp only [Chain.reaches, decide_eq_true_eq]
    omega
  apply hchains.glue hparts
  · intro a b link
    apply Linked.joined
    refine ⟨link.1, link.2.1, link.2.2.imp ?_ ?_⟩ <;>
    · intro hab
      have hab := (continues_iff _ _).mp hab
      rw [neighboring_iff]
      omega
  · intro A B link
    have htouches : A.touches corners B = true := by
      rcases link.2.2 with h | h
      · exact h.2
      · exact touches_comm corners A B ▸ h.2
    obtain ⟨a, ha, b, hb, hab⟩ := exists_neighboring_of_touches
      (fills_of_mem_chains link.1) (fills_of_mem_chains link.2.1) htouches
    exact ⟨a, ha, b, hb, hchains.mem_items (List.mem_map_of_mem link.1) ha,
      hchains.mem_items (List.mem_map_of_mem link.2.1) hb, .inl hab⟩
  · intro A hA B hB a ha b hb hbA link
    have hne : A ≠ B := fun h => hbA (h ▸ hb)
    have hapart : ¬ (continues a b = true ∨ continues b a = true) := by
      intro hab
      exact hbA (hchains.closed (List.mem_map_of_mem hA) ha ⟨link.1, link.2.1, hab⟩)
    have hneighbors : neighboring corners a b := link.2.2.elim id neighboring_symm
    have htouches := touches_of_neighboring (fills_of_mem_chains hA) (fills_of_mem_chains hB)
      ha hb hapart hneighbors
    rcases pair_sublist_of_ne hA hB hne with hsub | hsub
    · exact ⟨hA, hB, .inl ⟨hsub, htouches⟩⟩
    · exact ⟨hA, hB, .inr ⟨hsub, touches_comm corners A B ▸ htouches⟩⟩

end Island

end ShowerTrack
