import Mathlib.Order.Bounds.Basic
import ShowerTrack.Alignment
import ShowerTrack.Proofs.Tables

/-!
# Choice of frames

A run is served by the last entries that are not after it, or by the first of all. They do if every
detector has one among them, and the first entry of a detector counts. What is wrong otherwise is
told: that there are no entries, or which detector is missing.
-/

set_option autoImplicit false

namespace ShowerTrack.Alignment

variable {α : Type}

def runs (entries : List (DetectorFrame α)) : Set Int := { r | ∃ e ∈ entries, e.run = r }

def Serves (entries : List (DetectorFrame α)) (run chosen : Int) : Prop :=
  IsGreatest { r ∈ runs entries | r ≤ run } chosen ∨
    (∀ r ∈ runs entries, run < r) ∧ IsLeast (runs entries) chosen

def Listed (entries : List (DetectorFrame α)) (run : Int) (detector : Detector) : Prop :=
  ∃ e ∈ entries, e.run = run ∧ e.detector = detector

structure FirstMissing (entries : List (DetectorFrame α)) (run : Int) (detector : Detector) :
    Prop where
  missing : ¬Listed entries run detector
  before : ∀ other, other.index < detector.index → Listed entries run other

structure IsFirst (entries : List (DetectorFrame α)) (run : Int) (detector : Detector)
    (e : DetectorFrame α) : Prop where
  named : e.run = run ∧ e.detector = detector
  first : ∃ before after, entries = before ++ e :: after ∧ ¬Listed before run detector

inductive Answer (entries : List (DetectorFrame α)) (run : Int) :
    Except AlignmentError (Alignment α) → Prop
  | noEntries (h : entries = []) : Answer entries run (.error .noEntries)
  | missing {chosen : Int} {detector : Detector} (h : Serves entries run chosen)
      (hmissing : FirstMissing entries chosen detector) :
      Answer entries run (.error (.missingDetector chosen detector))
  | found {a : Alignment α} (h : Serves entries run a.run)
      (hfirst : ∀ detector, IsFirst entries a.run detector (a.frame detector)) :
      Answer entries run (.ok a)

section Choice

variable {entries others : List (DetectorFrame α)} {run chosen : Int} {detector : Detector}
  {e : DetectorFrame α}

theorem mem_runs : chosen ∈ runs entries ↔ chosen ∈ entries.map (·.run) := List.mem_map.symm

theorem chosenRun_eq_some_iff :
    chosenRun entries run = some chosen ↔ Serves entries run chosen := by
  have hlatest : ∀ r, ((entries.map (·.run)).filter (· ≤ run)).max? = some r ↔
      IsGreatest { r ∈ runs entries | r ≤ run } r := by
    intro r
    simp only [List.max?_eq_some_iff, List.mem_filter, decide_eq_true_eq, ← mem_runs]
    rfl
  have hfirst : (entries.map (·.run)).min? = some chosen ↔ IsLeast (runs entries) chosen := by
    simp only [List.min?_eq_some_iff, ← mem_runs]
    rfl
  cases hmax : ((entries.map (·.run)).filter (· ≤ run)).max? with
  | some r =>
    have hgreatest := (hlatest r).mp hmax
    simp only [chosenRun, hmax, Option.some.injEq]
    constructor
    · rintro rfl
      exact .inl hgreatest
    · rintro (h | ⟨hafter, -⟩)
      · exact hgreatest.unique h
      · exact absurd (hafter r hgreatest.1.1) (not_lt.mpr hgreatest.1.2)
  | none =>
    have hafter : ∀ r ∈ runs entries, run < r := by
      intro r hr
      rw [List.max?_eq_none_iff, List.filter_eq_nil_iff] at hmax
      simpa using hmax r (mem_runs.mp hr)
    simp only [chosenRun, hmax, hfirst]
    constructor
    · exact fun h => .inr ⟨hafter, h⟩
    · rintro (h | ⟨-, h⟩)
      · exact absurd (hafter chosen h.1.1) (not_lt.mpr h.1.2)
      · exact h

theorem chosenRun_eq_none_iff : chosenRun entries run = none ↔ entries = [] := by
  constructor
  · intro h
    simp only [chosenRun] at h
    split at h
    · cases h
    · rwa [List.min?_eq_none_iff, List.map_eq_nil_iff] at h
  · rintro rfl
    rfl

theorem find?_eq_some_iff_isFirst :
    (entries.find? fun e => e.run == run && e.detector == detector) = some e ↔
      IsFirst entries run detector e := by
  have hbefore : ∀ before : List (DetectorFrame α),
      (∀ o ∈ before, (!(o.run == run && o.detector == detector)) = true) ↔
        ¬Listed before run detector := by
    intro before
    simp [Listed, imp_iff_not_or]
  simp only [List.find?_eq_some_iff_append, hbefore, Bool.and_eq_true, beq_iff_eq]
  exact ⟨fun ⟨hnamed, hfirst⟩ => ⟨hnamed, hfirst⟩, fun h => ⟨h.named, h.first⟩⟩

theorem find?_eq_none_iff_listed :
    (entries.find? fun e => e.run == run && e.detector == detector) = none ↔
      ¬Listed entries run detector := by
  simp [Listed]

theorem frameOf_cases (entries : List (DetectorFrame α)) (run : Int) (detector : Detector) :
    (∃ e, frameOf entries run detector = .ok e ∧ IsFirst entries run detector e) ∨
      frameOf entries run detector = .error (.missingDetector run detector) ∧
        ¬Listed entries run detector := by
  unfold frameOf
  cases hfind : entries.find? fun e => e.run == run && e.detector == detector with
  | some e => exact .inl ⟨e, rfl, find?_eq_some_iff_isFirst.mp hfind⟩
  | none => exact .inr ⟨rfl, find?_eq_none_iff_listed.mp hfind⟩

theorem IsFirst.listed (h : IsFirst entries run detector e) : Listed entries run detector := by
  obtain ⟨before, after, rfl, -⟩ := h.first
  exact ⟨e, by simp, h.named⟩

theorem answer_ofEntries (entries : List (DetectorFrame α)) (run : Int) :
    Answer entries run (ofEntries entries run) := by
  unfold ofEntries
  cases hchosen : chosenRun entries run with
  | none => exact .noEntries (chosenRun_eq_none_iff.mp hchosen)
  | some r =>
    have hserves := chosenRun_eq_some_iff.mp hchosen
    -- the detectors are looked up in their order, and the first one that is missing ends it
    obtain ⟨c, hc, hcalo⟩ | ⟨hc, hcalo⟩ := frameOf_cases entries r .hyCal
    · obtain ⟨g, hg, hfirst⟩ | ⟨hg, hfirst⟩ := frameOf_cases entries r .gem1
      · obtain ⟨k, hk, hsecond⟩ | ⟨hk, hsecond⟩ := frameOf_cases entries r .gem2
        · simp only [hc, hg, hk]
          refine .found (a := ⟨r, c, g, k⟩) hserves ?_
          intro detector
          cases detector with
          | hyCal => exact hcalo
          | gem1 => exact hfirst
          | gem2 => exact hsecond
        · simp only [hc, hg, hk]
          refine .missing hserves ⟨hsecond, ?_⟩
          intro other hbefore
          cases other with
          | hyCal => exact hcalo.listed
          | gem1 => exact hfirst.listed
          | gem2 => exact absurd hbefore (lt_irrefl _)
      · simp only [hc, hg]
        refine .missing hserves ⟨hfirst, ?_⟩
        intro other hbefore
        cases other with
        | hyCal => exact hcalo.listed
        | gem1 => exact absurd hbefore (lt_irrefl _)
        | gem2 => exact absurd hbefore (by decide)
    · simp only [hc]
      refine .missing hserves ⟨hcalo, ?_⟩
      intro other hbefore
      exact absurd hbefore (Nat.not_lt_zero _)

theorem Serves.unique {other : Int} (h : Serves entries run chosen)
    (hother : Serves entries run other) : chosen = other :=
  Option.some.inj ((chosenRun_eq_some_iff.mpr h).symm.trans (chosenRun_eq_some_iff.mpr hother))

theorem Serves.mem (h : Serves entries run chosen) : chosen ∈ runs entries := by
  rcases h with h | ⟨-, h⟩
  · exact h.1.1
  · exact h.1

theorem Serves.ne_nil (h : Serves entries run chosen) : entries ≠ [] := by
  rintro rfl
  obtain ⟨e, he, -⟩ := h.mem
  cases he

theorem Serves.mono {later next : Int} (h : Serves entries run chosen)
    (hnext : Serves entries later next) (hle : run ≤ later) : chosen ≤ next := by
  rcases h with h | ⟨-, hleast⟩
  · rcases hnext with hnext | ⟨hafter, -⟩
    · exact hnext.2 ⟨h.1.1, h.1.2.trans hle⟩
    · exact absurd (hafter chosen h.1.1) (not_lt.mpr (h.1.2.trans hle))
  · exact hleast.2 hnext.mem

theorem FirstMissing.unique {other : Detector} (h : FirstMissing entries run detector)
    (hother : FirstMissing entries run other) : detector = other := by
  obtain hlt | heq | hlt := lt_trichotomy detector.index other.index
  · exact absurd (hother.before detector hlt) h.missing
  · exact StripKey.index_detector_inj heq
  · exact absurd (h.before other hlt) hother.missing

theorem IsFirst.unique {o : DetectorFrame α} (h : IsFirst entries run detector e)
    (ho : IsFirst entries run detector o) : e = o :=
  Option.some.inj ((find?_eq_some_iff_isFirst.mpr h).symm.trans (find?_eq_some_iff_isFirst.mpr ho))

theorem ext_frames {a b : Alignment α} (hrun : a.run = b.run)
    (h : ∀ detector, a.frame detector = b.frame detector) : a = b := by
  obtain ⟨aRun, aCalo, aFirst, aSecond⟩ := a
  obtain ⟨bRun, bCalo, bFirst, bSecond⟩ := b
  have hcalo : aCalo = bCalo := h .hyCal
  have hfirst : aFirst = bFirst := h .gem1
  have hsecond : aSecond = bSecond := h .gem2
  have hruns : aRun = bRun := hrun
  rw [hruns, hcalo, hfirst, hsecond]

theorem Answer.unique {x y : Except AlignmentError (Alignment α)} (hx : Answer entries run x)
    (hy : Answer entries run y) : x = y := by
  cases hx with
  | noEntries h =>
    cases hy with
    | noEntries _ => rfl
    | missing hserves _ => exact absurd h hserves.ne_nil
    | found hserves _ => exact absurd h hserves.ne_nil
  | missing hserves hmissing =>
    cases hy with
    | noEntries h => exact absurd h hserves.ne_nil
    | missing hserves' hmissing' =>
      obtain rfl := hserves.unique hserves'
      rw [hmissing.unique hmissing']
    | found hserves' hfirst =>
      obtain rfl := hserves.unique hserves'
      exact absurd (hfirst _).listed hmissing.missing
  | found hserves hfirst =>
    cases hy with
    | noEntries h => exact absurd h hserves.ne_nil
    | missing hserves' hmissing =>
      obtain rfl := hserves.unique hserves'
      exact absurd (hfirst _).listed hmissing.missing
    | found hserves' hfirst' =>
      have hrun := hserves.unique hserves'
      rw [ext_frames hrun fun detector => (hfirst detector).unique (hrun ▸ hfirst' detector)]

theorem ofEntries_eq_iff {x : Except AlignmentError (Alignment α)} :
    ofEntries entries run = x ↔ Answer entries run x := by
  constructor
  · rintro rfl
    exact answer_ofEntries entries run
  · exact (answer_ofEntries entries run).unique

/-- Which frames a run gets, and why it gets none. -/
structure Chooses (entries : List (DetectorFrame α)) (run : Int) : Prop where
  noEntries : ofEntries entries run = .error .noEntries ↔ entries = []
  served : entries ≠ [] → ∃! chosen, Serves entries run chosen
  missing : ∀ chosen detector,
    ofEntries entries run = .error (.missingDetector chosen detector) ↔
      Serves entries run chosen ∧ FirstMissing entries chosen detector
  found : ∀ a, ofEntries entries run = .ok a ↔
    Serves entries run a.run ∧ ∀ detector, IsFirst entries a.run detector (a.frame detector)
  complete : ∀ chosen, Serves entries run chosen →
    ((∃ a, ofEntries entries run = .ok a) ↔ ∀ detector, Listed entries chosen detector)

theorem chooses (entries : List (DetectorFrame α)) (run : Int) : Chooses entries run where
  noEntries := by
    rw [ofEntries_eq_iff]
    constructor
    · intro hanswer
      cases hanswer with
      | noEntries h => exact h
    · exact .noEntries
  served h := by
    obtain ⟨chosen, hchosen⟩ := Option.ne_none_iff_exists'.mp (mt chosenRun_eq_none_iff.mp h)
    have hserves := chosenRun_eq_some_iff.mp hchosen
    exact ⟨chosen, hserves, fun _ hother => hother.unique hserves⟩
  missing chosen detector := by
    rw [ofEntries_eq_iff]
    constructor
    · intro hanswer
      cases hanswer with
      | missing hserves hmissing => exact ⟨hserves, hmissing⟩
    · rintro ⟨hserves, hmissing⟩
      exact .missing hserves hmissing
  found a := by
    rw [ofEntries_eq_iff]
    constructor
    · intro hanswer
      cases hanswer with
      | found hserves hfirst => exact ⟨hserves, hfirst⟩
    · rintro ⟨hserves, hfirst⟩
      exact .found hserves hfirst
  complete chosen hserves := by
    have hanswer := answer_ofEntries entries run
    constructor
    · rintro ⟨a, ha⟩ detector
      rw [ha] at hanswer
      cases hanswer with
      | found hserves' hfirst => exact hserves.unique hserves' ▸ (hfirst detector).listed
    · intro hlisted
      generalize ofEntries entries run = x at hanswer
      cases hanswer with
      | noEntries h => exact absurd h hserves.ne_nil
      | missing hserves' hmissing =>
        exact absurd (hserves'.unique hserves ▸ hlisted _) hmissing.missing
      | found _ _ => exact ⟨_, rfl⟩

theorem chosenRun_of_perm (h : entries.Perm others) :
    chosenRun entries run = chosenRun others run := by
  have hruns : runs entries = runs others := by
    ext r
    rw [mem_runs, mem_runs, (h.map _).mem_iff]
  ext r
  rw [chosenRun_eq_some_iff, chosenRun_eq_some_iff, Serves, Serves, hruns]

theorem frameOf_of_perm (hn : (entries.map fun e => (e.run, e.detector)).Nodup)
    (h : entries.Perm others) : frameOf entries run detector = frameOf others run detector := by
  have hfilter : (entries.filter fun e => e.run == run && e.detector == detector) =
      others.filter fun e => e.run == run && e.detector == detector := by
    apply eq_of_perm_of_alike (h.filter _)
    intro a ha b hb
    rw [List.mem_filter, Bool.and_eq_true, beq_iff_eq, beq_iff_eq] at ha hb
    apply List.inj_on_of_nodup_map hn ha.1 hb.1
    rw [ha.2.1, ha.2.2, hb.2.1, hb.2.2]
  rw [frameOf, frameOf, ← List.head?_filter, ← List.head?_filter, hfilter]

theorem ofEntries_of_perm (hn : (entries.map fun e => (e.run, e.detector)).Nodup)
    (h : entries.Perm others) (run : Int) : ofEntries entries run = ofEntries others run := by
  simp only [ofEntries, chosenRun_of_perm h, frameOf_of_perm hn h]

end Choice

/-- Entries choose the frames of every run. A later run is not served by earlier entries, and the
order of entries does not matter unless two of them say the same run and detector. -/
theorem frames_chosen_by_run :
    (∀ (entries : List (DetectorFrame α)) (run : Int), Chooses entries run) ∧
      (∀ (entries : List (DetectorFrame α)) (run later chosen next : Int), run ≤ later →
        Serves entries run chosen → Serves entries later next → chosen ≤ next) ∧
      (∀ entries others : List (DetectorFrame α), entries.Perm others →
        (entries.map fun e => (e.run, e.detector)).Nodup →
        ∀ run, ofEntries entries run = ofEntries others run) :=
  ⟨chooses, fun _ _ _ _ _ hle h hnext => h.mono hnext hle, fun _ _ h hn => ofEntries_of_perm hn h⟩

/-- Two runs with entries for all detectors and a third one with a single entry, read forwards and
backwards. -/
theorem frames_chosen_from_both_ends :
    let entry (run : Int) (detector : Detector) (x : Float32) : DetectorFrame Float32 :=
      ⟨run, detector, ⟨x, 0, 5000⟩, ⟨0, 0, 0⟩⟩
    let entries := [entry 1200 .gem2 6, entry 1000 .hyCal 1, entry 1000 .gem1 2,
      entry 1400 .hyCal 7, entry 1200 .hyCal 4, entry 1000 .gem2 3, entry 1200 .gem1 5]
    entries.Perm entries.reverse ∧ (entries.map fun e => (e.run, e.detector)).Nodup ∧
      ofEntries entries 1300 = ofEntries entries.reverse 1300 ∧
      (10 : Int) ≤ 1300 ∧ Serves entries 10 1000 ∧ Serves entries 1300 1200 ∧ (1000 : Int) ≤ 1200 ∧
      ofEntries entries 5000 = .error (.missingDetector 1400 .gem1) := by
  intro entry entries
  have hperm : entries.Perm entries.reverse := entries.reverse_perm.symm
  have hkeys : (entries.map fun e => (e.run, e.detector)).Nodup := by decide
  have hearly : Serves entries 10 1000 := chosenRun_eq_some_iff.mp rfl
  have hmiddle : Serves entries 1300 1200 := chosenRun_eq_some_iff.mp rfl
  have hlate : Serves entries 5000 1400 := chosenRun_eq_some_iff.mp rfl
  have hmissing : FirstMissing entries 1400 .gem1 := by
    refine ⟨find?_eq_none_iff_listed.mp rfl, ?_⟩
    intro other hbefore
    cases other with
    | hyCal => exact (find?_eq_some_iff_isFirst.mp rfl).listed
    | gem1 => exact absurd hbefore (lt_irrefl _)
    | gem2 => exact absurd hbefore (by decide)
  obtain ⟨hchooses, hmono, hreordered⟩ := frames_chosen_by_run (α := Float32)
  exact ⟨hperm, hkeys, hreordered _ _ hperm hkeys 1300, by decide, hearly, hmiddle,
    hmono _ _ _ _ _ (by decide) hearly hmiddle,
    ((hchooses entries 5000).missing 1400 .gem1).mpr ⟨hlate, hmissing⟩⟩

end ShowerTrack.Alignment
