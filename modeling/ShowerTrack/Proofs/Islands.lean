import ShowerTrack.Proofs.Components
import ShowerTrack.Proofs.Flood

/-!
# Islands

A flood reaches what the ways lead to from its edge, and leaves nothing dry that a flooded cell has
a way to. When the ways follow a relation without direction, the islands are its components, each
in row-major order.
-/

set_option autoImplicit false

namespace ShowerTrack

theorem Cell.before_iff (a b : Cell) :
    Cell.before a b = true ↔ a.1 < b.1 ∨ (a.1 = b.1 ∧ a.2 < b.2) := by
  simp [before]

namespace Grid

variable {ways : Cell → List Cell}

theorem mem_foldl_wet_dry {cells : List Cell} {s : List Cell × Std.HashSet Cell} {c : Cell} :
    c ∈ (cells.foldl wet s).2 ↔ c ∈ s.2 ∧ c ∉ cells := by
  induction cells generalizing s with
  | nil => simp
  | cons a cells ih =>
    rw [List.foldl_cons, ih, List.mem_cons, not_or, ← and_assoc]
    have hwet : c ∈ (wet s a).2 ↔ c ∈ s.2 ∧ ¬ c = a := by
      unfold wet
      split
      · rw [Std.HashSet.mem_erase, beq_eq_false_iff_ne, ne_comm, and_comm]
      · rename_i ha
        constructor
        · intro hc
          exact ⟨hc, fun h => ha (h ▸ hc)⟩
        · exact And.left
    rw [hwet]

theorem mem_foldl_wet_edge {cells : List Cell} {s : List Cell × Std.HashSet Cell} {c : Cell}
    (h : c ∈ (cells.foldl wet s).1) : c ∈ s.1 ∨ (c ∈ cells ∧ c ∈ s.2) := by
  induction cells generalizing s with
  | nil => exact .inl h
  | cons a cells ih =>
    rw [List.foldl_cons] at h
    by_cases ha : a ∈ s.2
    · have hwet : wet s a = (a :: s.1, s.2.erase a) := by rw [wet, if_pos ha]
      rw [hwet] at h
      rcases ih h with hedge | ⟨hcells, hdry⟩
      · rcases List.mem_cons.mp hedge with rfl | hc
        · exact .inr ⟨List.mem_cons_self, ha⟩
        · exact .inl hc
      · exact .inr ⟨List.mem_cons_of_mem a hcells, (Std.HashSet.mem_erase.mp hdry).2⟩
    · have hwet : wet s a = s := by rw [wet, if_neg ha]
      rw [hwet] at h
      exact (ih h).imp_right fun ⟨hcells, hdry⟩ => ⟨List.mem_cons_of_mem a hcells, hdry⟩

theorem dry_of_mem_flood {edge : List Cell} {dry : Std.HashSet Cell} {c : Cell}
    (h : c ∈ (flood ways edge dry).2) : c ∈ dry := by
  induction edge, dry using flood.induct ways with
  | case1 dry =>
    rw [flood] at h
    exact h
  | case2 a edge dry next _ _ _ ih =>
    rw [flood] at h
    exact (mem_foldl_wet_dry.mp (ih h)).1

/-- What a flooded cell has a way to is flooded, or was wet before. -/
theorem flood_closed {edge : List Cell} {dry : Std.HashSet Cell} {b c : Cell}
    (hb : b ∈ (flood ways edge dry).1) (hc : c ∈ ways b) : c ∉ (flood ways edge dry).2 := by
  induction edge, dry using flood.induct ways with
  | case1 dry =>
    rw [flood] at hb
    exact absurd hb List.not_mem_nil
  | case2 a edge dry next _ _ _ ih =>
    rw [flood] at hb ⊢
    rcases List.mem_cons.mp hb with rfl | hb
    · intro hrest
      exact (mem_foldl_wet_dry.mp (dry_of_mem_flood hrest)).2 hc
    · exact ih hb

def Leads (ways : Cell → List Cell) (cells : List Cell) (a b : Cell) : Prop :=
  b ∈ ways a ∧ b ∈ cells

/-- Every flooded cell is reached from the edge along ways through dry cells. -/
theorem flood_reached {cells : List Cell} {edge : List Cell} {dry : Std.HashSet Cell}
    (hdry : ∀ c ∈ dry, c ∈ cells) {c : Cell} (h : c ∈ (flood ways edge dry).1) :
    ∃ a ∈ edge, Relation.ReflTransGen (Leads ways cells) a c := by
  induction edge, dry using flood.induct ways with
  | case1 dry =>
    rw [flood] at h
    exact absurd h List.not_mem_nil
  | case2 a edge dry next _ _ _ ih =>
    rw [flood] at h
    rcases List.mem_cons.mp h with rfl | h
    · exact ⟨c, List.mem_cons_self, .refl⟩
    · obtain ⟨b, hb, path⟩ := ih (fun d hd => hdry d (mem_foldl_wet_dry.mp hd).1) h
      rcases mem_foldl_wet_edge hb with hedge | ⟨hway, hwet⟩
      · exact ⟨b, List.mem_cons_of_mem a hedge, path⟩
      · exact ⟨a, List.mem_cons_self, path.head ⟨hway, hdry b hwet⟩⟩

theorem dry_of_mem_islandsFrom {cells : List Cell} {dry : Std.HashSet Cell} {g : List Cell}
    (hg : g ∈ islandsFrom ways cells dry) {c : Cell} (hc : c ∈ g) : c ∈ dry := by
  induction cells generalizing dry with
  | nil => exact absurd hg List.not_mem_nil
  | cons a cells ih =>
    rw [islandsFrom] at hg
    split at hg
    · rename_i ha
      rcases List.mem_cons.mp hg with rfl | hg
      · rw [List.mem_mergeSort] at hc
        have hcopies := copies_flood ways [a] (dry.erase a) c
        rw [copies_erase (s := ([], dry)) ha, copies, copies] at hcopies
        have hpos := List.count_pos_iff.mpr hc
        by_contra hno
        rw [if_neg hno] at hcopies
        simp only [List.count_nil] at hcopies
        omega
      · have hrest := dry_of_mem_flood (ih hg)
        exact (Std.HashSet.mem_erase.mp hrest).2
    · exact ih hg

theorem islandsFrom_inhabited (ways : Cell → List Cell) (cells : List Cell)
    (dry : Std.HashSet Cell) : [] ∉ islandsFrom ways cells dry := by
  induction cells generalizing dry with
  | nil => exact List.not_mem_nil
  | cons a cells ih =>
    rw [islandsFrom]
    split
    · have hne : [] ≠ (flood ways [a] (dry.erase a)).1.mergeSort fun a b => !Cell.before b a := by
        intro hnil
        have hlength := congrArg List.length hnil
        rw [List.length_mergeSort, flood] at hlength
        simp at hlength
      rw [List.mem_cons, not_or]
      exact ⟨hne, ih _⟩
    · exact ih dry

theorem islandsFrom_sorted (ways : Cell → List Cell) (cells : List Cell)
    (dry : Std.HashSet Cell) :
    ∀ g ∈ islandsFrom ways cells dry, g.Pairwise fun a b => (!Cell.before b a) = true := by
  induction cells generalizing dry with
  | nil => simp [islandsFrom]
  | cons a cells ih =>
    rw [islandsFrom]
    split
    · rw [List.forall_mem_cons]
      refine ⟨List.pairwise_mergeSort ?_ ?_ _, ih _⟩
      · intro a b c hab hbc
        simp only [Bool.not_eq_true', ← Bool.not_eq_true, Cell.before_iff] at hab hbc ⊢
        omega
      · intro a b
        rw [Bool.or_eq_true]
        simp only [Bool.not_eq_true', ← Bool.not_eq_true, Cell.before_iff]
        omega
    · exact ih dry

/-- No way leads from an island to a later one. -/
theorem islandsFrom_apart (ways : Cell → List Cell) (cells : List Cell) (dry : Std.HashSet Cell) :
    (islandsFrom ways cells dry).Pairwise fun g h => ∀ a ∈ g, ∀ b ∈ h, b ∉ ways a := by
  induction cells generalizing dry with
  | nil => exact .nil
  | cons c cells ih =>
    rw [islandsFrom]
    split
    · apply List.Pairwise.cons _ (ih _)
      intro h hh a ha b hb hway
      exact flood_closed (List.mem_mergeSort.mp ha) hway (dry_of_mem_islandsFrom hh hb)
    · exact ih dry

/-- An island holds what the ways lead to from its first cell. -/
theorem islandsFrom_reached {items cells : List Cell} {dry : Std.HashSet Cell}
    (hdry : ∀ c ∈ dry, c ∈ items) :
    ∀ g ∈ islandsFrom ways cells dry, ∃ a ∈ items, ∀ b ∈ g,
      Relation.ReflTransGen (Leads ways items) a b := by
  induction cells generalizing dry with
  | nil => simp [islandsFrom]
  | cons a cells ih =>
    have herase : ∀ c ∈ dry.erase a, c ∈ items := fun c hc =>
      hdry c (Std.HashSet.mem_erase.mp hc).2
    rw [islandsFrom]
    split
    · rename_i ha
      rw [List.forall_mem_cons]
      constructor
      · refine ⟨a, hdry a ha, ?_⟩
        intro b hb
        obtain ⟨e, he, path⟩ := flood_reached herase (List.mem_mergeSort.mp hb)
        rw [List.mem_singleton.mp he] at path
        exact path
      · exact ih fun c hc => herase c (dry_of_mem_flood hc)
    · exact ih hdry

theorem joined_of_leads {r : Cell → Cell → Prop} {items : List Cell}
    (hways : ∀ a ∈ items, ∀ b ∈ items, b ∈ ways a ↔ r a b) {a b : Cell} (ha : a ∈ items)
    (path : Relation.ReflTransGen (Leads ways items) a b) : Joined r items a b := by
  induction path using Relation.ReflTransGen.head_induction_on with
  | refl => exact .refl b
  | @head c d step _ ih =>
    have link : Linked r items c d := ⟨ha, step.2, .inl ((hways c ha d step.2).mp step.1)⟩
    exact link.joined.trans (ih step.2)

variable {α : Type} [Scalar α]

theorem islands_sorted (g : Grid α) (s : GridSettings α) :
    ∀ island ∈ g.islands s, island.Pairwise fun a b => (!Cell.before b a) = true :=
  islandsFrom_sorted _ _ _

/-- The islands of a grid are the components of a relation that the ways follow. -/
theorem islands_components (g : Grid α) (s : GridSettings α) {r : Cell → Cell → Prop}
    (symm : ∀ a b, r a b → r b a)
    (hways : ∀ a ∈ g.cells.filter (g.isDry s), ∀ b ∈ g.cells.filter (g.isDry s),
      b ∈ g.ways s a ↔ r a b) :
    IsComponents r (g.cells.filter (g.isDry s)) (g.islands s) := by
  have hdry : ∀ c ∈ Std.HashSet.ofList (g.cells.filter (g.isDry s)),
      c ∈ g.cells.filter (g.isDry s) := by
    intro c hc
    rwa [Std.HashSet.mem_ofList, List.contains_iff_mem] at hc
  have hreached : ∀ island ∈ g.islands s, ∃ a ∈ g.cells.filter (g.isDry s), ∀ b ∈ island,
      Relation.ReflTransGen (Leads (g.ways s) (g.cells.filter (g.isDry s))) a b :=
    islandsFrom_reached hdry
  have hmem : ∀ island ∈ g.islands s, ∀ c ∈ island, c ∈ g.cells.filter (g.isDry s) :=
    fun island hi c hc => hdry c (dry_of_mem_islandsFrom hi hc)
  apply IsComponents.of_apart (g.flatten_islands_perm s) (islandsFrom_inhabited _ _ _)
  · intro island hi a ha b hb
    obtain ⟨first, hfirst, path⟩ := hreached island hi
    exact (joined_of_leads hways hfirst (path a ha)).symm.trans
      (joined_of_leads hways hfirst (path b hb))
  · apply (islandsFrom_apart _ _ _).imp_of_mem
    intro island other hi ho hapart a ha b hb hab
    have hr : r a b := hab.elim id (symm b a)
    exact hapart a ha b hb
      ((hways a (hmem island hi a ha) b (hmem other ho b hb)).mpr hr)

end Grid

end ShowerTrack
