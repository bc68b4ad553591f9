import ShowerTrack.Proofs.Content
import ShowerTrack.Proofs.Drawn
import ShowerTrack.Proofs.Leakage

/-!
# Recovered blocks

A dead block takes no energy, so that no cluster is formed with it; leakage recovery adds dead
blocks and nothing else. Blocks are numbered once in the layout, and the dead ones around a center
are listed once, so a cluster of different blocks stays one when its leakage is recovered.
-/

set_option autoImplicit false

namespace ShowerTrack

variable {α : Type}

namespace Sectors

def ids : List Int :=
  ((List.range (count - 1)).flatMap fun s => (cells glassRows glassColumns).map fun (r, c) =>
      (((s * glassRows + r) * glassColumns + c + 1 : Nat) : Int)) ++
    ((cells crystalGrid crystalGrid).filter fun (r, c) => !isBeamHole r c).map
      fun (r, c) => 1000 + ((r * crystalGrid + c + 1 : Nat) : Int)

theorem map_id_blocks [Scalar α] : (blocks : List (Block α)).map (·.id) = ids := by
  simp only [blocks, ids, glassSector, crystals, List.map_append, List.map_flatMap, List.map_map]
  rfl

theorem nodup_ids : ids.Nodup := by
  have hascend : ids.IsChain (· < ·) := by decide +kernel
  exact hascend.pairwise.imp ne_of_lt

end Sectors

namespace Calorimeter

structure Marked (d : Calorimeter α) (dead : List Int) : Prop where
  nodup : (d.channels.map (·.block.id)).Nodup
  dead_iff : ∀ c ∈ d.channels, c.dead = true ↔ c.block.id ∈ dead

def Quiet [Scalar α] (d : Calorimeter α) : Prop :=
  ∀ c ∈ d.channels, c.dead = true → c.energy = 0

theorem indexIn_eq_none {id : Int} {cs : List (Channel α)} (h : indexIn id cs = none) :
    id ∉ cs.map (·.block.id) := by
  induction cs with
  | nil => exact List.not_mem_nil
  | cons c cs ih =>
    rw [indexIn] at h
    split at h
    · cases h
    · rename_i hrest
      split at h
      · cases h
      · rename_i hid
        rw [List.map_cons, List.mem_cons, not_or]
        exact ⟨Ne.symm hid, ih hrest⟩

theorem map_id_zipIdx (channels : List (Channel α)) :
    (channels.zipIdx.map fun x => x.1.block.id) = channels.map (·.block.id) := by
  have hfst := congrArg (List.map (·.block.id)) (List.zipIdx_map_fst 0 channels)
  rw [List.map_map] at hfst
  exact hfst

/-- Where blocks have one channel each, a block is found at the position of its channel. -/
theorem index?_eq_some_iff {d : Calorimeter α} (hn : (d.channels.map (·.block.id)).Nodup)
    {i : Nat} {c : Channel α} (hc : d.channels[i]? = some c) (id : Int) :
    d.index? id = some i ↔ c.block.id = id := by
  constructor
  · intro hindex
    obtain ⟨e, he, rfl⟩ := block_of_index? hindex
    rw [Option.some.inj (hc.symm.trans he)]
  · rintro rfl
    cases hindex : d.index? c.block.id with
    | none =>
      exact absurd (List.mem_map_of_mem (List.mem_of_getElem? hc)) (indexIn_eq_none hindex)
    | some j =>
      obtain ⟨e, he, hid⟩ := block_of_index? hindex
      rw [(position_eq_iff hn he hc).mpr hid]

theorem Marked.setDead {d : Calorimeter α} {dead : List Int} (h : d.Marked dead)
    (ids : List Int) : (d.setDead ids).Marked ids where
  nodup := by
    have hids : (d.setDead ids).channels.map (·.block.id) = d.channels.map (·.block.id) := by
      rw [← map_id_zipIdx d.channels, Calorimeter.setDead, List.map_map]
      rfl
    exact hids ▸ h.nodup
  dead_iff c hc := by
    obtain ⟨⟨c, i⟩, hi, rfl⟩ := List.mem_map.mp hc
    have hindex := index?_eq_some_iff h.nodup (List.mem_zipIdx_iff_getElem?.mp hi)
    simp only [List.contains_iff_mem, List.mem_filterMap, hindex]
    constructor
    · rintro ⟨id, hid, rfl⟩
      exact hid
    · intro hid
      exact ⟨c.block.id, hid, rfl⟩

/-- The marks are a matter of the numbers of the blocks and of which of them are dead. -/
theorem Marked.of_map_eq {d e : Calorimeter α} {dead : List Int} (h : d.Marked dead)
    (hmarks : (d.channels.map fun c => (c.block.id, c.dead)) =
      e.channels.map fun c => (c.block.id, c.dead)) : e.Marked dead := by
  constructor
  · have hids := congrArg (List.map Prod.fst) hmarks
    rw [List.map_map, List.map_map] at hids
    exact (show d.channels.map (·.block.id) = e.channels.map (·.block.id) from hids) ▸ h.nodup
  · intro c hc
    have hmark : (c.block.id, c.dead) ∈ d.channels.map fun c => (c.block.id, c.dead) :=
      hmarks ▸ List.mem_map_of_mem hc
    obtain ⟨b, hb, hbc⟩ := List.mem_map.mp hmark
    rw [Prod.mk.injEq] at hbc
    rw [← hbc.1, ← hbc.2]
    exact h.dead_iff b hb

theorem Marked.setCalibration {d : Calorimeter α} {dead : List Int} (h : d.Marked dead)
    (id : Int) (calibration : Calibration α) : (d.setCalibration id calibration).1.Marked dead := by
  unfold Calorimeter.setCalibration
  split
  · apply h.of_map_eq
    exact (map_modify_of_eq (f := (withCalibration · calibration))
      (g := fun c : Channel α => (c.block.id, c.dead)) fun _ _ => rfl).symm
  · exact h

theorem Marked.applyCalibrations {d : Calorimeter α} {dead : List Int} (h : d.Marked dead)
    (cs : List (BlockCalibration α)) : (d.applyCalibrations cs).1.Marked dead := by
  induction cs generalizing d with
  | nil => exact h
  | cons c cs ih => exact ih (h.setCalibration c.id ⟨c.baseEnergy, c.nonLinear⟩)

section Arithmetic

variable [Scalar α]

theorem marked_standard : (standard : Calorimeter α).Marked [] where
  nodup := by
    have hids : (standard : Calorimeter α).channels.map (·.block.id) = Sectors.ids := by
      rw [← Sectors.map_id_blocks (α := α), standard, ofBlocks, List.map_map]
      rfl
    exact hids ▸ Sectors.nodup_ids
  dead_iff c hc := by
    obtain ⟨b, _, rfl⟩ := List.mem_map.mp hc
    simp

theorem Marked.of_clear_eq {d e : Calorimeter α} {dead : List Int} (h : d.Marked dead)
    (hclear : d.clear = e.clear) : e.Marked dead := by
  have hmarks := congrArg (fun cleared => cleared.channels.map fun c => (c.block.id, c.dead)) hclear
  simp only [clear, List.map_map] at hmarks
  exact h.of_map_eq hmarks

theorem clear_addAll (d : Calorimeter α) (bs : List (BlockEnergy α)) :
    (d.addAll bs).clear = d.clear := by
  induction bs generalizing d with
  | nil => rfl
  | cons b bs ih => exact (ih _).trans (d.clear_addEnergy b.id b.energy)

theorem quiet_clear (d : Calorimeter α) : d.clear.Quiet := by
  intro c hc _
  obtain ⟨b, _, rfl⟩ := List.mem_map.mp hc
  rfl

theorem Quiet.addAll {d : Calorimeter α} (h : d.Quiet) (bs : List (BlockEnergy α)) :
    (d.addAll bs).Quiet := by
  intro c hc hdead
  obtain ⟨j, hj⟩ := List.mem_iff_getElem?.mp hc
  rw [getElem?_addAll, Option.map_eq_some_iff] at hj
  obtain ⟨b, hb, rfl⟩ := hj
  by_cases hmark : b.dead = true
  · rw [gain, if_pos hmark]
    exact h b (List.mem_of_getElem? hb) hmark
  · rw [gain, if_neg hmark] at hdead
    exact absurd hdead hmark

/-- What is measured are different live blocks with energy. -/
theorem Marked.measured [Scalar.Ordered α] {d : Calorimeter α} {dead : List Int}
    (h : d.Marked dead) (hquiet : d.Quiet) :
    (d.measured.map (·.id)).Nodup ∧ ∀ hit ∈ d.measured, hit.id ∉ dead ∧ 0 < hit.energy := by
  constructor
  · have hids : d.measured.map (·.id) =
        (d.channels.filter fun c => 0 < c.energy).map (·.block.id) := by
      rw [Calorimeter.measured, List.map_map]
      rfl
    exact hids ▸ h.nodup.sublist (List.filter_sublist.map _)
  · intro hit hh
    obtain ⟨c, hc, rfl⟩ := List.mem_map.mp hh
    obtain ⟨hc, hpos⟩ := List.mem_filter.mp hc
    have hpos : 0 < c.energy := of_decide_eq_true hpos
    refine ⟨?_, hpos⟩
    intro hid
    rw [hquiet c hc ((h.dead_iff c hc).mpr hid)] at hpos
    exact Scalar.Ordered.lt_irrefl 0 hpos

theorem Marked.deadNeighbors {d : Calorimeter α} {dead : List Int} (h : d.Marked dead)
    (id : Int) : ((d.deadNeighbors id).map (·.id)).Nodup ∧
      ∀ hit ∈ d.deadNeighbors id, hit.id ∈ dead := by
  unfold Calorimeter.deadNeighbors
  split
  · exact ⟨List.nodup_nil, fun _ hh => absurd hh List.not_mem_nil⟩
  · split
    · exact ⟨List.nodup_nil, fun _ hh => absurd hh List.not_mem_nil⟩
    · constructor
      · rw [List.map_map]
        exact (map_id_zipIdx d.channels ▸ h.nodup).sublist (List.filter_sublist.map _)
      · intro hit hh
        obtain ⟨⟨e, j⟩, he, rfl⟩ := List.mem_map.mp hh
        obtain ⟨he, hkept⟩ := List.mem_filter.mp he
        simp only [Bool.and_eq_true] at hkept
        exact (h.dead_iff e (List.fst_mem_of_mem_zipIdx he)).mp hkept.1.2

end Arithmetic

end Calorimeter

namespace CaloSettings

/-- Estimates of blocks are known by the same numbers. -/
theorem map_id_of_same {dead leaks : List (BlockHit α)}
    (h : List.Forall₂ (fun b leak => leak = { b with energy := leak.energy }) dead leaks) :
    leaks.map (·.id) = dead.map (·.id) := by
  induction h with
  | nil => rfl
  | cons hsame _ ih => rw [List.map_cons, List.map_cons, ih, hsame]

/-- Recovery appends dead blocks to the hits, each once. -/
theorem hits_recoverLeakage [Elementary α] (s : CaloSettings α) (p : Profile α)
    (dead : List (BlockHit α)) (c : BlockCluster α) :
    ∃ recovered, (s.recoverLeakage p dead c).hits = c.hits ++ recovered ∧
      (recovered.map (·.id)).Sublist (dead.map (·.id)) := by
  have h := s.recovers_recoverLeakage p c dead
  by_cases hnone : dead = [] ∨ c.hits = []
  · exact ⟨[], by rw [h.unchanged hnone, List.append_nil], List.nil_sublist _⟩
  · rw [not_or] at hnone
    refine ⟨_, (h.recovered hnone.1 hnone.2).hits, ?_⟩
    rw [← map_id_of_same h.estimated]
    exact List.filter_sublist.map _

end CaloSettings

/-- A cluster holds the hits of another one, drawn from some blocks, and then different blocks
out of others. -/
structure BlockCluster.Completes (c formed : BlockCluster α) (blocks others : List Int) : Prop where
  drawn : formed.DrawnFrom blocks
  added : ∃ recovered, c.hits = formed.hits ++ recovered ∧ (recovered.map (·.id)).Nodup ∧
    recovered.map (·.id) ⊆ others

theorem BlockCluster.Completes.nodup_ids {c formed : BlockCluster α} {blocks others : List Int}
    (h : c.Completes formed blocks others) (hdisjoint : List.Disjoint blocks others) :
    c.ids.Nodup := by
  obtain ⟨recovered, hhits, hn, hsubset⟩ := h.added
  rw [BlockCluster.ids, hhits, List.map_append, List.nodup_append']
  exact ⟨h.drawn.nodup, hn,
    List.disjoint_of_subset_left h.drawn.subset (List.disjoint_of_subset_right hsubset hdisjoint)⟩

namespace Calorimeter

variable [Elementary α]

def settle (d : Calorimeter α) (s : CaloSettings α) (p : Profile α) (c : BlockCluster α) :
    BlockCluster α :=
  if s.accepts c then s.recoverLeakage p (d.deadNeighbors c.center.id) c else c

theorem clusters_tally (d : Calorimeter α) (s : CaloSettings α) (p : Profile α) (t : Tally α)
    (c : BlockCluster α) : (d.tally s p t c).clusters = t.clusters ++ [d.settle s p c] := by
  unfold tally settle
  split
  · split
    · rfl
    · rfl
  · rfl

theorem clusters_foldl_tally (d : Calorimeter α) (s : CaloSettings α) (p : Profile α)
    (cs : List (BlockCluster α)) (t : Tally α) :
    (cs.foldl (d.tally s p) t).clusters = t.clusters ++ cs.map (d.settle s p) := by
  induction cs generalizing t with
  | nil => exact (List.append_nil _).symm
  | cons c cs ih =>
    rw [List.foldl_cons, ih, clusters_tally, List.append_assoc]
    rfl

theorem clusters_reconstruct (d : Calorimeter α) (s : CaloSettings α) (p : Profile α) :
    (d.reconstruct s p).clusters = (s.clusters p d.measured).map (d.settle s p) :=
  d.clusters_foldl_tally s p _ _

theorem Marked.settle {d : Calorimeter α} {dead : List Int} (h : d.Marked dead)
    (s : CaloSettings α) (p : Profile α) {formed : BlockCluster α} {blocks : List Int}
    (hformed : formed.DrawnFrom blocks) : (d.settle s p formed).Completes formed blocks dead := by
  refine ⟨hformed, ?_⟩
  unfold Calorimeter.settle
  split
  · obtain ⟨hn, hdead⟩ := h.deadNeighbors formed.center.id
    obtain ⟨recovered, hhits, hsublist⟩ :=
      s.hits_recoverLeakage p (d.deadNeighbors formed.center.id) formed
    refine ⟨recovered, hhits, hn.sublist hsublist, ?_⟩
    intro id hid
    obtain ⟨hit, hh, rfl⟩ := List.mem_map.mp (hsublist.subset hid)
    exact hdead hit hh
  · exact ⟨[], (List.append_nil _).symm, List.nodup_nil, List.nil_subset _⟩

/-- From different live blocks, clusters of different blocks are drawn and stay such. -/
theorem Marked.reconstruct [Scalar.Ordered α] {d : Calorimeter α} {dead : List Int}
    (h : d.Marked dead) (hquiet : d.Quiet) {s : CaloSettings α} (hmethod : s.method ≠ .primex)
    (p : Profile α) :
    (∀ c ∈ (d.reconstruct s p).clusters, c.ids.Nodup) ∧
      (d.measured.map (·.id)).Nodup ∧
      (∀ hit ∈ d.measured, hit.id ∉ dead ∧ 0 < hit.energy) ∧
      List.Forall₂ (fun c formed => c.Completes formed (d.measured.map (·.id)) dead)
        (d.reconstruct s p).clusters (s.clusters p d.measured) := by
  obtain ⟨hn, hlive⟩ := h.measured hquiet
  have hcompletes : ∀ formed ∈ s.clusters p d.measured,
      (d.settle s p formed).Completes formed (d.measured.map (·.id)) dead :=
    fun formed hformed => h.settle s p (s.drawn_clusters hmethod p hn formed hformed)
  have hdisjoint : List.Disjoint (d.measured.map (·.id)) dead := by
    intro id hid hdead
    obtain ⟨hit, hh, rfl⟩ := List.mem_map.mp hid
    exact (hlive hit hh).1 hdead
  rw [clusters_reconstruct]
  refine ⟨?_, hn, hlive, ?_⟩
  · intro c hc
    obtain ⟨formed, hformed, rfl⟩ := List.mem_map.mp hc
    exact (hcompletes formed hformed).nodup_ids hdisjoint
  · rw [List.forall₂_map_left_iff, List.forall₂_same]
    exact hcompletes

end Calorimeter

namespace Reconstructor

variable [Elementary α]

theorem marked_build (settings : Settings α) (profile : Profile α) (alignment : Alignment α)
    (pedestals : PedestalTable α) (calibrations : List (BlockCalibration α)) :
    ((build settings profile alignment pedestals).applyCalibrations
      calibrations).1.calorimeter.Marked settings.deadBlocks :=
  (Calorimeter.marked_standard.setDead settings.deadBlocks).applyCalibrations calibrations

theorem calorimeter_reconstruct (r : Reconstructor α) (e : RawEvent α) :
    (r.reconstruct e).1.calorimeter = (r.calorimeter.clear.addAll e.blocks).reconstruct
      r.settings.calorimeter r.profile := by
  have hdone : (r.reconstruct e).1 = (r.clear.fill e).1.runDetectors := rfl
  rw [hdone, fill_fst]
  rfl

/-- With the window method and the method of islands no cluster lists a block twice, whatever
events came before. It is drawn from the blocks that were measured, which are live and different,
and recovery adds different dead blocks to it. -/
theorem clusters_list_blocks_once [Scalar.Ordered α] (settings : Settings α)
    (hmethod : settings.calorimeter.method = .island ∨ settings.calorimeter.method = .square)
    (profile : Profile α) (alignment : Alignment α) (pedestals : PedestalTable α)
    (calibrations : List (BlockCalibration α)) (history : List (RawEvent α)) (e : RawEvent α) :
    let fresh := ((build settings profile alignment pedestals).applyCalibrations calibrations).1
    let d := ((fresh.after history).reconstruct e).1.calorimeter
    (∀ c ∈ d.clusters, c.ids.Nodup) ∧
      (d.blockHits.map (·.id)).Nodup ∧
      (∀ hit ∈ d.blockHits, hit.id ∉ settings.deadBlocks ∧ 0 < hit.energy) ∧
      List.Forall₂
        (fun c formed => c.Completes formed (d.blockHits.map (·.id)) settings.deadBlocks)
        d.clusters (settings.calorimeter.clusters profile d.blockHits) := by
  intro fresh d
  have hmarked : (fresh.calorimeter.clear.addAll e.blocks).Marked settings.deadBlocks := by
    apply (marked_build settings profile alignment pedestals calibrations).of_clear_eq
    rw [Calorimeter.clear_addAll, Calorimeter.clear_clear]
  have hquiet : (fresh.calorimeter.clear.addAll e.blocks).Quiet :=
    (Calorimeter.quiet_clear _).addAll e.blocks
  have hprimex : settings.calorimeter.method ≠ .primex := by
    rcases hmethod with hmethod | hmethod
    · simp [hmethod]
    · simp [hmethod]
  have hd : d = (fresh.calorimeter.clear.addAll e.blocks).reconstruct settings.calorimeter
      profile := by
    have hcongr := reconstruct_congr (fresh.clear_after history) e
    have hread := congrArg (fun done => done.1.calorimeter) hcongr
    exact hread.trans (fresh.calorimeter_reconstruct e)
  rw [hd]
  exact hmarked.reconstruct hquiet hprimex profile

/-- A dead crystal beside the center, which is recovered if its share is large enough. -/
theorem clusters_beside_dead_list_blocks_once :
    let settings : Settings Float32 := { Settings.standard with deadBlocks := [1019] }
    let calibrations : List (BlockCalibration Float32) := [⟨1018, 1000, 0.01⟩]
    let history : List (RawEvent Float32) := [⟨6, [⟨1019, 80⟩, ⟨1500, 60⟩], []⟩]
    let e : RawEvent Float32 := ⟨7, [⟨1018, 300⟩, ⟨1019, 100⟩, ⟨1017, 40⟩, ⟨1018, 5⟩], []⟩
    settings.calorimeter.method = .island ∧
      ∀ c ∈ ((((build settings ⟨#[], #[]⟩ .nominal ∅).applyCalibrations calibrations).1.after
        history).reconstruct e).1.calorimeter.clusters, c.ids.Nodup := by
  intro settings calibrations history e
  have honce := clusters_list_blocks_once settings (.inl rfl) ⟨#[], #[]⟩ .nominal ∅ calibrations
    history e
  exact ⟨rfl, honce.1⟩

end Reconstructor

end ShowerTrack
