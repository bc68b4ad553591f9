import ShowerTrack.Proofs.Averages
import ShowerTrack.Proofs.Crew
import ShowerTrack.Proofs.Tables

/-!
# Levels

A pedestal run keeps the sums of the levels of every strip. In exact arithmetic it is all one how
its events are divided, and in which order the parts are merged: the sums of a strip are those of
the averages of its records.
-/

set_option autoImplicit false

namespace ShowerTrack

variable {α : Type}

/-- Exact scalars need no wider ones for their sums. -/
instance (priority := low) Exact.widening [Exact α] : Widening α α := ⟨id, id⟩

@[simp] theorem Exact.widen_eq [Exact α] (a : α) : Widening.widen a = a := rfl

namespace Levels

/-- The sums of every strip are those of its levels, and there are none of a strip without. -/
def Collects [Scalar α] (l : Levels α) (levels : StripKey → List α) : Prop :=
  ∀ key, l[key]? = if (levels key).isEmpty then none else some (.ofList (levels key))

def take [Scalar α] (l : Levels α) (e : StripKey × LevelSum α) : Levels α :=
  l.insert e.1 ((l.getD e.1 .zero).merge e.2)

def takeAll [Scalar α] (l : Levels α) (visit : List (StripKey × LevelSum α)) : Levels α :=
  visit.foldl take l

theorem getElem?_insert (l : Levels α) (key other : StripKey) (sums : LevelSum α) :
    (l.insert key sums)[other]? = if other = key then some sums else l[other]? := by
  rw [Std.TreeMap.getElem?_insert]
  by_cases hkey : other = key
  · rw [if_pos hkey, if_pos (Std.LawfulEqCmp.compare_eq_iff_eq.mpr hkey.symm)]
  · rw [if_neg hkey, if_neg fun heq => hkey (Std.LawfulEqCmp.eq_of_compare heq).symm]

section Merge

variable [Scalar α]

theorem merge_eq_takeAll (l m : Levels α) : l.merge m = l.takeAll m.toList :=
  Std.TreeMap.foldl_eq_foldl_toList

theorem getElem?_takeAll_of_not_mem {visit : List (StripKey × LevelSum α)} {key : StripKey}
    (h : ∀ e ∈ visit, e.1 ≠ key) (l : Levels α) : (l.takeAll visit)[key]? = l[key]? := by
  induction visit generalizing l with
  | nil => rfl
  | cons e visit ih =>
    have hstep : l.takeAll (e :: visit) = (l.take e).takeAll visit := rfl
    rw [hstep, ih fun d hd => h d (List.mem_cons_of_mem e hd), take, getElem?_insert,
      if_neg (h e List.mem_cons_self).symm]

/-- What is taken in of a strip is added to what there is of it, whatever comes between. -/
theorem getElem?_takeAll_of_mem {visit : List (StripKey × LevelSum α)}
    (hn : (visit.map (·.1)).Nodup) {key : StripKey} {sums : LevelSum α}
    (h : (key, sums) ∈ visit) (l : Levels α) :
    (l.takeAll visit)[key]? = some ((l.getD key .zero).merge sums) := by
  obtain ⟨front, back, rfl, hfront, hback⟩ := exists_split_at_key hn h
  have hsplit : l.takeAll (front ++ (key, sums) :: back) =
      ((l.takeAll front).take (key, sums)).takeAll back := by
    rw [takeAll, List.foldl_append]
    rfl
  rw [hsplit, getElem?_takeAll_of_not_mem hback, take, getElem?_insert, if_pos rfl,
    Std.TreeMap.getD_eq_getD_getElem?, getElem?_takeAll_of_not_mem hfront,
    ← Std.TreeMap.getD_eq_getD_getElem?]

theorem getElem?_takeAll {l m : Levels α} {visit : List (StripKey × LevelSum α)}
    (h : visit.Perm m.toList) (key : StripKey) :
    (l.takeAll visit)[key]? =
      (m[key]?).elim l[key]? fun sums => some ((l.getD key .zero).merge sums) := by
  have hn : (visit.map (·.1)).Nodup := (h.map _).nodup_iff.mpr (nodup_keys m)
  cases hm : m[key]? with
  | none =>
    apply getElem?_takeAll_of_not_mem
    rintro ⟨other, sums⟩ he rfl
    rw [Std.TreeMap.mem_toList_iff_getElem?_eq_some.mp (h.subset he)] at hm
    cases hm
  | some sums =>
    have hmem := h.symm.subset (Std.TreeMap.mem_toList_iff_getElem?_eq_some.mpr hm)
    exact getElem?_takeAll_of_mem hn hmem l

/-- The order in which the entries of other levels are come by does not matter. -/
theorem takeAll_equiv_merge {l m : Levels α} {visit : List (StripKey × LevelSum α)}
    (h : visit.Perm m.toList) : (l.takeAll visit).Equiv (l.merge m) := by
  apply Std.TreeMap.Equiv.of_forall_constGet?_eq
  intro key
  have hvisit := getElem?_takeAll (l := l) h key
  have hmerge := getElem?_takeAll (l := l) (.refl m.toList) key
  rw [merge_eq_takeAll]
  exact hvisit.trans hmerge.symm

end Merge

variable [Exact α]

theorem Collects.getD {l : Levels α} {levels : StripKey → List α} (h : l.Collects levels)
    (key : StripKey) : l.getD key .zero = .ofList (levels key) := by
  rw [Std.TreeMap.getD_eq_getD_getElem?, h key]
  split
  · rename_i hempty
    rw [List.isEmpty_iff.mp hempty]
    rfl
  · rfl

theorem Collects.congr {l : Levels α} {levels others : StripKey → List α}
    (h : l.Collects levels) (hperm : ∀ key, (levels key).Perm (others key)) :
    l.Collects others := by
  intro key
  rw [h key, (hperm key).isEmpty_eq, LevelSum.ofList_of_perm (hperm key)]

theorem collects_empty : (∅ : Levels α).Collects fun _ => [] := fun _ => rfl

theorem Collects.add {l : Levels α} {levels : StripKey → List α} (h : l.Collects levels)
    (key : StripKey) (level : α) :
    (l.add key level).Collects fun other =>
      levels other ++ if other = key then [level] else [] := by
  intro other
  have hadd : (LevelSum.ofList (levels key)).add level = .ofList (levels key ++ [level]) := by
    rw [LevelSum.ofList, LevelSum.ofList, List.foldl_append]
    rfl
  rw [Levels.add, getElem?_insert, h.getD]
  by_cases hkey : other = key
  · subst hkey
    simpa using hadd
  · simpa [hkey] using h other

theorem Collects.merge {l m : Levels α} {levels others : StripKey → List α}
    (h : l.Collects levels) (k : m.Collects others) :
    (l.merge m).Collects fun key => levels key ++ others key := by
  intro key
  rw [merge_eq_takeAll, getElem?_takeAll (.refl _), k key, h.getD]
  by_cases hothers : others key = []
  · simpa [hothers] using h key
  · simp [hothers, LevelSum.ofList_append]

theorem Collects.mergeAll {γ : Type} {parts : List γ} {l : γ → Levels α}
    {levels : γ → StripKey → List α} (h : ∀ part ∈ parts, (l part).Collects (levels part)) :
    (Levels.mergeAll (parts.map l)).Collects fun key =>
      parts.flatMap fun part => levels part key := by
  suffices hfold : ∀ (start : Levels α) (before : StripKey → List α), start.Collects before →
      ((parts.map l).foldl Levels.merge start).Collects
        fun key => before key ++ parts.flatMap fun part => levels part key from
    hfold ∅ _ collects_empty
  induction parts with
  | nil =>
    intro start before hstart
    simpa using hstart
  | cons part parts ih =>
    intro start before hstart
    have hnext := hstart.merge (h part List.mem_cons_self)
    have hrest := ih (fun p hp => h p (List.mem_cons_of_mem part hp)) _ _ hnext
    simpa [List.append_assoc] using hrest

theorem Collects.getElem?_eq {l m : Levels α} {levels others : StripKey → List α}
    (h : l.Collects levels) (k : m.Collects others)
    (hperm : ∀ key, (levels key).Perm (others key)) (key : StripKey) : l[key]? = m[key]? := by
  rw [h.congr hperm key, k key]

theorem Collects.variance {l : Levels α} {levels : StripKey → List α} (h : l.Collects levels)
    {key : StripKey} {sums : LevelSum α} (hsums : l[key]? = some sums) :
    sums.variance = sums.squares / Scalar.ofNat sums.count - sums.mean * sums.mean := by
  rw [h key] at hsums
  split at hsums
  · cases hsums
  · rename_i hlevels
    obtain rfl := Option.some.inj hsums
    obtain ⟨hguarded, hdifference⟩ := LevelSum.variance_ofList (mt List.isEmpty_iff.mpr hlevels)
    exact hguarded.trans hdifference.symm

theorem getElem?_finish (l : Levels α) (key : StripKey) :
    (l.finish : PedestalTable α)[key]? =
      (l[key]?.filter fun sums => sums.count != 0).map pedestalOf := by
  rw [finish, Std.TreeMap.getElem?_map, Std.TreeMap.getElem?_filter']

theorem toList_finish {l m : Levels α} (h : ∀ key : StripKey, l[key]? = m[key]?) :
    (l.finish : PedestalTable α).toList = (m.finish : PedestalTable α).toList := by
  apply Std.TreeMap.Equiv.toList_eq
  apply Std.TreeMap.Equiv.of_forall_constGet?_eq
  intro key
  have hl := getElem?_finish l key
  have hm := getElem?_finish m key
  rw [h key] at hl
  exact hl.trans hm.symm

end Levels

/-- A table has one entry for every strip with levels, in their order, with the mean of the levels
and the root of their variance. -/
structure PedestalTable.Describes [Exact α] (table : PedestalTable α)
    (levels : StripKey → List α) : Prop where
  ascending : table.toList.Pairwise fun a b => compare a.1 b.1 = .lt
  listed : ∀ key, key ∈ table ↔ levels key ≠ []
  pedestal : ∀ (key : StripKey) (p : Pedestal α), table[key]? = some p →
    p.mean = average (levels key) ∧ 0 ≤ p.rms ∧ p.rms * p.rms = populationVariance (levels key)

theorem Levels.Collects.finish [Exact α] {l : Levels α} {levels : StripKey → List α}
    (h : l.Collects levels) : PedestalTable.Describes l.finish levels := by
  have hentry : ∀ key, (l.finish : PedestalTable α)[key]? =
      if levels key = [] then none else some (Levels.pedestalOf (.ofList (levels key))) := by
    intro key
    rw [Levels.getElem?_finish, h key]
    by_cases hlevels : levels key = []
    · simp [hlevels]
    · simp [hlevels, LevelSum.ofList_eq]
  constructor
  · exact Std.TreeMap.ordered_keys_toList
  · intro key
    rw [Std.TreeMap.mem_iff_isSome_getElem?, hentry]
    by_cases hlevels : levels key = []
    · simp [hlevels]
    · simp [hlevels]
  · intro key p hp
    rw [hentry] at hp
    split at hp
    · cases hp
    · rename_i hlevels
      obtain rfl := Option.some.inj hp
      have hvariance := (LevelSum.variance_ofList hlevels).1
      have hnonneg := populationVariance_nonneg (levels key)
      rw [← hvariance] at hnonneg ⊢
      exact ⟨LevelSum.mean_ofList (levels key), Exact.sqrt_nonneg _, Exact.mul_self_sqrt _ hnonneg⟩

def stripAverages [Exact α] (strips : List (StripSamples α)) (key : StripKey) : List α :=
  (strips.filter fun s => s.key == key && !s.samples.isEmpty).map fun s => average s.samples

def recordAverages [Exact α] (events : List (RawEvent α)) (key : StripKey) : List α :=
  stripAverages (events.flatMap (·.strips)) key

theorem recordAverages_of_perm [Exact α] {events others : List (RawEvent α)}
    (h : events.Perm others) (key : StripKey) :
    (recordAverages events key).Perm (recordAverages others key) :=
  ((h.flatMap_right _).filter _).map _

theorem recordAverages_flatMap [Exact α] {γ : Type} (parts : List γ)
    (events : γ → List (RawEvent α)) (key : StripKey) :
    recordAverages (parts.flatMap events) key =
      parts.flatMap fun part => recordAverages (events part) key := by
  induction parts with
  | nil => rfl
  | cons part parts ih =>
    rw [List.flatMap_cons, List.flatMap_cons, ← ih]
    simp only [recordAverages, stripAverages, List.flatMap_append, List.filter_append,
      List.map_append]

namespace Reconstructor

variable [ExactElementary α]

theorem level?_eq (r : Reconstructor α) (s : StripSamples α) :
    r.level? s = if s.samples.isEmpty then none else some (average s.samples) := by
  unfold level? stripOutput
  by_cases hempty : s.samples.isEmpty
  · simp [hempty]
  · simp only [hempty, Bool.false_eq_true, if_false]
    exact congrArg some (Exact.mean_eq s.samples)

theorem collects_addLevel (r : Reconstructor α) {l : Levels α} {levels : StripKey → List α}
    (h : l.Collects levels) (s : StripSamples α) :
    (r.addLevel l s).Collects fun key => levels key ++ stripAverages [s] key := by
  rw [addLevel, level?_eq]
  by_cases hempty : s.samples.isEmpty
  · simpa [hempty, stripAverages] using h
  · simp only [hempty, Bool.false_eq_true, if_false]
    apply (h.add s.key (average s.samples)).congr
    intro key
    by_cases hkey : s.key = key
    · simp [stripAverages, hkey, hempty]
    · simp [stripAverages, hkey, Ne.symm hkey]

def levels (r : Reconstructor α) (events : List (RawEvent α)) : Levels α :=
  events.foldl r.addLevels ∅

theorem collects_levels (r : Reconstructor α) (events : List (RawEvent α)) :
    (r.levels events).Collects (recordAverages events) := by
  have hfold : ∀ (strips : List (StripSamples α)) (l : Levels α) (levels : StripKey → List α),
      l.Collects levels →
        (strips.foldl r.addLevel l).Collects fun key => levels key ++ stripAverages strips key := by
    intro strips
    induction strips with
    | nil => exact fun _ _ h => h.congr fun _ => by simp [stripAverages]
    | cons s strips ih =>
      intro l levels h
      apply (ih _ _ (r.collects_addLevel h s)).congr
      intro key
      rw [List.append_assoc, stripAverages, stripAverages, ← List.map_append,
        ← List.filter_append]
      exact .refl _
  have hlevels : r.levels events = (events.flatMap (·.strips)).foldl r.addLevel ∅ := by
    rw [List.foldl_flatMap]
    rfl
  rw [hlevels]
  exact hfold _ _ _ Levels.collects_empty

theorem collects_shares (r : Reconstructor α) (events : Array (RawEvent α)) {workers : Nat}
    {shares : List (List Nat)} (h : shares.Perm (subsets events.size workers)) :
    (Levels.mergeAll (shares.map fun share => r.levels (pick events share))).Collects
      (recordAverages events.toList) := by
  have hshare : ∀ share ∈ shares, (r.levels (pick events share)).Collects
      (recordAverages (pick events share)) :=
    fun share _ => r.collects_levels (pick events share)
  apply (Levels.Collects.mergeAll hshare).congr
  intro key
  rw [← recordAverages_flatMap]
  apply recordAverages_of_perm
  exact (h.flatMap_right _).trans (flatMap_pick_perm events workers)

/-- However the events are divided between workers, and in whatever order their levels are merged,
the pedestals are those of one worker that takes all events. Merging and writing give the same
whatever order the entries of a table are come by in. -/
theorem pedestals_of_any_division (r : Reconstructor α) (events : Array (RawEvent α))
    (workers : Nat) {shares : List (List Nat)} (h : shares.Perm (subsets events.size workers)) :
    let merged := Levels.mergeAll (shares.map fun share => r.levels (pick events share))
    let table : PedestalTable α := Levels.finish merged
    table.toList = (r.pedestalRun (β := α) events workers).toList ∧
      table.toList = (Levels.finish (r.levels events.toList) : PedestalTable α).toList ∧
      table.Describes (recordAverages events.toList) ∧
      (∀ (key : StripKey) (sums : LevelSum α), merged[key]? = some sums →
        sums.variance = sums.squares / Scalar.ofNat sums.count - sums.mean * sums.mean) ∧
      (∀ (l m : Levels α) (visit : List (StripKey × LevelSum α)), visit.Perm m.toList →
        (Levels.takeAll l visit).Equiv (l.merge m)) ∧
      ∀ (written : PedestalTable Float32) (visit : List (StripKey × Pedestal Float32)),
        visit.Perm written.toList →
          written.rows =
            ((visit.mergeSort byKey).map fun (key, pedestal) => ⟨key, pedestal⟩) ∧
          written.rows.Pairwise fun a b => compare a.key b.key = .lt := by
  intro merged table
  have hmerged : merged.Collects (recordAverages events.toList) := r.collects_shares events h
  have hrun := r.collects_shares events (.refl (subsets events.size workers))
  have hwhole := r.collects_levels events.toList
  refine ⟨?_, ?_, hmerged.finish, fun _ _ => hmerged.variance,
    fun _ _ _ => Levels.takeAll_equiv_merge, fun _ _ => PedestalTable.rows_of_visit⟩
  · exact Levels.toList_finish (hmerged.getElem?_eq hrun fun _ => .refl _)
  · exact Levels.toList_finish (hmerged.getElem?_eq hwhole fun _ => .refl _)

/-- Two workers, of which the second one is done first. -/
theorem pedestals_of_second_worker_first :
    let r : Reconstructor ℝ := .build .standard ⟨#[], #[]⟩ .nominal ∅
    let events : Array (RawEvent ℝ) :=
      #[⟨7, [], [⟨⟨.gem1, .x, 30⟩, [1, 2]⟩, ⟨⟨.gem2, .y, 4⟩, []⟩]⟩,
        ⟨8, [], [⟨⟨.gem1, .x, 30⟩, [5]⟩]⟩]
    [[1], [0]].Perm (subsets 2 2) ∧
      PedestalTable.Describes (Levels.finish (Levels.mergeAll
        ([[1], [0]].map fun share => r.levels (pick events share))))
          (recordAverages events.toList) := by
  intro r events
  have h : [[1], [0]].Perm (subsets 2 2) := by decide
  have hdivision := r.pedestals_of_any_division events 2 h
  exact ⟨h, hdivision.2.2.1⟩

end Reconstructor

end ShowerTrack
