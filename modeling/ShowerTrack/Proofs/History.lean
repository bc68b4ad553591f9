import ShowerTrack.Proofs.Checked.Arena
import ShowerTrack.Proofs.Recovery

/-!
# The calls behind a calorimeter

What a calorimeter holds can be read off the calls that were made to it, the latest first: a block
is dead if the last list of dead blocks has it, has the calibration that was last set for it, and
holds the energies that it was given while it was live since the last clearing. Nothing is left of
earlier lists, neither in a block nor in the table of dead neighbors.
-/

set_option autoImplicit false

namespace ShowerTrack

variable {α : Type}

namespace Calorimeter

/-- What a calorimeter is called for. A reconstruction forms clusters in some way, and its profile
is made from fractions. -/
inductive Call (α : Type) where
  | setDead (ids : List Int)
  | setCalibration (id : Int) (calibration : Calibration α)
  | applyCalibrations (calibrations : List (BlockCalibration α))
  | addEnergy (id : Int) (energy : α)
  | clear
  | reconstruct (form : List (BlockHit α) → List (BlockCluster α)) (s : CaloSettings α)
    (fraction : BlockKind → α → α → α)

namespace Call

def lastDead : List (Call α) → List Int
  | [] => []
  | setDead ids :: _ => ids
  | _ :: earlier => lastDead earlier

def latest? (id : Int) (cs : List (BlockCalibration α)) : Option (Calibration α) :=
  (cs.reverse.find? (·.id = id)).map fun c => ⟨c.baseEnergy, c.nonLinear⟩

theorem latest?_cons (id : Int) (c : BlockCalibration α) (cs : List (BlockCalibration α)) :
    latest? id (c :: cs) =
      (latest? id cs).or (if c.id = id then some ⟨c.baseEnergy, c.nonLinear⟩ else none) := by
  rw [latest?, List.reverse_cons, List.find?_append, List.find?_singleton, Option.map_or,
    latest?]
  by_cases hid : c.id = id
  · simp [hid]
  · simp [hid]

def lastCalibration (b : Block α) : List (Call α) → Calibration α
  | [] => b.calibration
  | setCalibration id calibration :: earlier =>
    if id = b.id then calibration else lastCalibration b earlier
  | applyCalibrations cs :: earlier => (latest? b.id cs).getD (lastCalibration b earlier)
  | _ :: earlier => lastCalibration b earlier

section Energies

variable [Scalar α]

/-- The positive energies that were given to a block since the last clearing, as long as it was not
dead, from the first to the last. -/
def received (id : Int) : List (Call α) → List α
  | [] => []
  | clear :: _ => []
  | addEnergy block energy :: earlier =>
    if block = id ∧ id ∉ lastDead earlier ∧ 0 < energy then received id earlier ++ [energy]
    else received id earlier
  | _ :: earlier => received id earlier

def held (id : Int) (past : List (Call α)) : α := (received id past).foldl (· + ·) 0

def channelAfter (past : List (Call α)) (b : Block α) : Channel α :=
  { block := { b with calibration := lastCalibration b past }
    dead := (lastDead past).contains b.id
    energy := held b.id past }

def alter : Call α → Channel α → Channel α
  | setDead ids, c => { c with dead := ids.contains c.block.id }
  | setCalibration id calibration, c =>
    if c.block.id = id then withCalibration c calibration else c
  | applyCalibrations cs, c => (latest? c.block.id cs).elim c (withCalibration c)
  | addEnergy id energy, c =>
    if c.block.id = id ∧ c.dead = false ∧ 0 < energy then { c with energy := c.energy + energy }
    else c
  | clear, c => { c with energy := 0 }
  | reconstruct _ _ _, c => c

theorem id_alter (call : Call α) (c : Channel α) : (call.alter c).block.id = c.block.id := by
  cases call with
  | setDead ids => rfl
  | setCalibration id calibration =>
    rw [alter]
    split
    · rfl
    · rfl
  | applyCalibrations cs =>
    rw [alter]
    cases latest? c.block.id cs with
    | none => rfl
    | some calibration => rfl
  | addEnergy id energy =>
    rw [alter]
    split
    · rfl
    · rfl
  | clear => rfl
  | reconstruct form s fraction => rfl

/-- One more call changes the channel that the calls before it have left. -/
theorem alter_channelAfter (call : Call α) (past : List (Call α)) (b : Block α) :
    call.alter (channelAfter past b) = channelAfter (call :: past) b := by
  cases call with
  | setDead ids => rfl
  | setCalibration id calibration =>
    by_cases hid : b.id = id
    · simp [alter, channelAfter, lastCalibration, lastDead, held, received, withCalibration, hid]
    · simp [alter, channelAfter, lastCalibration, lastDead, held, received, hid, Ne.symm hid]
  | applyCalibrations cs =>
    have hid : (channelAfter past b).block.id = b.id := rfl
    rw [alter, hid]
    cases hentry : latest? b.id cs with
    | none => simp [channelAfter, lastCalibration, lastDead, held, received, hentry]
    | some calibration =>
      simp [channelAfter, lastCalibration, lastDead, held, received, withCalibration, hentry]
  | addEnergy id energy =>
    by_cases hgiven : id = b.id ∧ b.id ∉ lastDead past ∧ 0 < energy
    · obtain ⟨rfl, hlive, hpos⟩ := hgiven
      simp [alter, channelAfter, lastCalibration, lastDead, held, received, hlive, hpos]
    · have halter : ¬ ((channelAfter past b).block.id = id ∧ (channelAfter past b).dead = false ∧
          0 < energy) := by
        simpa [channelAfter, eq_comm] using hgiven
      have hheld : held b.id (addEnergy id energy :: past) = held b.id past := by
        rw [held, received, if_neg hgiven, held]
      rw [alter, if_neg halter, channelAfter, channelAfter, hheld]
      rfl
  | clear => rfl
  | reconstruct form s fraction => rfl

/-- A list of calibrations is set entry by entry. -/
theorem alter_applyCalibrations_cons (c : BlockCalibration α) (cs : List (BlockCalibration α))
    (channel : Channel α) : (applyCalibrations (c :: cs)).alter channel =
      (applyCalibrations cs).alter
        ((setCalibration c.id ⟨c.baseEnergy, c.nonLinear⟩).alter channel) := by
  have hall : ∀ (cs : List (BlockCalibration α)) (channel : Channel α),
      (applyCalibrations cs).alter channel =
        (latest? channel.block.id cs).elim channel (withCalibration channel) := fun _ _ => rfl
  by_cases hc : channel.block.id = c.id
  · have hset : (setCalibration c.id ⟨c.baseEnergy, c.nonLinear⟩).alter channel =
        withCalibration channel ⟨c.baseEnergy, c.nonLinear⟩ := if_pos hc
    rw [hset, hall, latest?_cons, if_pos hc.symm]
    cases hentry : latest? channel.block.id cs with
    | none => simp [hall, withCalibration, hentry]
    | some calibration => simp [hall, withCalibration, hentry]
  · have hset : (setCalibration c.id ⟨c.baseEnergy, c.nonLinear⟩).alter channel = channel :=
      if_neg hc
    rw [hset, hall, hall, latest?_cons, if_neg (Ne.symm hc), Option.or_none]

end Energies

end Call

section Channels

/-- What is meant for a block changes one channel at most. -/
theorem channels_modify {d : Calorimeter α} (hn : (d.channels.map (·.block.id)).Nodup) {id : Int}
    {i : Nat} (hindex : d.index? id = some i) (f : Channel α → Channel α) :
    (d.modify i f).channels = d.channels.map fun c => if c.block.id = id then f c else c := by
  apply List.ext_getElem?
  intro j
  rw [getElem?_modify, List.getElem?_map]
  apply Option.map_congr
  intro c hc
  have hsame := index?_eq_some_iff hn hc id
  rw [hindex, Option.some.injEq] at hsame
  simp only [hsame]

theorem channels_of_unknown {d : Calorimeter α} {id : Int} (hindex : d.index? id = none)
    (f : Channel α → Channel α) :
    d.channels = d.channels.map fun c => if c.block.id = id then f c else c := by
  conv_lhs => rw [← List.map_id d.channels]
  apply List.map_congr_left
  intro c hc
  have hother : c.block.id ≠ id := fun hid =>
    indexIn_eq_none hindex (hid ▸ List.mem_map_of_mem hc)
  rw [if_neg hother]
  rfl

variable [Scalar α] {d : Calorimeter α} (hn : (d.channels.map (·.block.id)).Nodup)

theorem map_id_alter (call : Call α) (cs : List (Channel α)) :
    (cs.map call.alter).map (·.block.id) = cs.map (·.block.id) := by
  rw [List.map_map]
  exact List.map_congr_left fun c _ => call.id_alter c

include hn

theorem channels_setDead (ids : List Int) :
    (d.setDead ids).channels = d.channels.map (Call.setDead ids).alter := by
  apply List.ext_getElem?
  intro j
  rw [Calorimeter.setDead, List.getElem?_map, List.getElem?_map, List.getElem?_zipIdx,
    Option.map_map]
  apply Option.map_congr
  intro c hc
  have hmark : (ids.filterMap d.index?).contains j = ids.contains c.block.id := by
    rw [Bool.eq_iff_iff]
    simp only [List.contains_iff_mem, List.mem_filterMap, index?_eq_some_iff hn hc]
    constructor
    · rintro ⟨id, hid, rfl⟩
      exact hid
    · exact fun hid => ⟨c.block.id, hid, rfl⟩
  simp only [Call.alter, Function.comp_apply, Nat.zero_add, hmark]

theorem channels_setCalibration (id : Int) (calibration : Calibration α) :
    (d.setCalibration id calibration).1.channels =
      d.channels.map (Call.setCalibration id calibration).alter := by
  unfold Calorimeter.setCalibration
  split
  · rename_i i hindex
    exact channels_modify hn hindex (withCalibration · calibration)
  · rename_i hindex
    exact channels_of_unknown hindex (withCalibration · calibration)

theorem channels_applyCalibrations (cs : List (BlockCalibration α)) :
    (d.applyCalibrations cs).1.channels = d.channels.map (Call.applyCalibrations cs).alter := by
  induction cs generalizing d with
  | nil => exact (List.map_id d.channels).symm
  | cons c cs ih =>
    have hset := channels_setCalibration hn c.id ⟨c.baseEnergy, c.nonLinear⟩
    have hrest := ih (d := (d.setCalibration c.id ⟨c.baseEnergy, c.nonLinear⟩).1)
      (by rw [hset, map_id_alter]; exact hn)
    rw [hset, List.map_map] at hrest
    refine hrest.trans (List.map_congr_left fun channel _ => ?_)
    exact (Call.alter_applyCalibrations_cons c cs channel).symm

theorem channels_addEnergy (id : Int) (energy : α) :
    (d.addEnergy id energy).1.channels = d.channels.map (Call.addEnergy id energy).alter := by
  apply List.ext_getElem?
  intro j
  rw [d.getElem?_addEnergy ⟨id, energy⟩ j, List.getElem?_map]
  apply Option.map_congr
  intro c hc
  have hcounts : d.counts j ⟨id, energy⟩ = (decide (c.block.id = id) && decide (0 < energy)) := by
    rw [counts, Bool.eq_iff_iff]
    simp [index?_eq_some_iff hn hc]
  rw [gain, Calorimeter.received, List.filter_singleton, hcounts, Call.alter]
  by_cases hid : c.block.id = id
  · by_cases hpos : 0 < energy
    · by_cases hdead : c.dead = true
      · simp [hid, hpos, hdead]
      · simp [hid, hpos, hdead]
    · simp [hpos]
  · simp [hid]

end Channels

section Run

variable [Elementary α]

def respond (d : Calorimeter α) : Call α → Calorimeter α
  | .setDead ids => d.setDead ids
  | .setCalibration id calibration => (d.setCalibration id calibration).1
  | .applyCalibrations cs => (d.applyCalibrations cs).1
  | .addEnergy id energy => (d.addEnergy id energy).1
  | .clear => d.clear
  | .reconstruct form s fraction => d.reconstructBy form s (.ofFractions fraction)

/-- Every call changes the channels one by one. -/
theorem channels_respond {d : Calorimeter α} (hn : (d.channels.map (·.block.id)).Nodup)
    (call : Call α) : (d.respond call).channels = d.channels.map call.alter := by
  cases call with
  | setDead ids => exact channels_setDead hn ids
  | setCalibration id calibration => exact channels_setCalibration hn id calibration
  | applyCalibrations cs => exact channels_applyCalibrations hn cs
  | addEnergy id energy => exact channels_addEnergy hn id energy
  | clear => rfl
  | reconstruct form s fraction => exact (List.map_id d.channels).symm

/-- The calorimeter of some blocks after calls, of which the latest stands first. -/
def after (blocks : List (Block α)) (past : List (Call α)) : Calorimeter α :=
  past.foldr (fun call d => d.respond call) (ofBlocks blocks)

structure Recalls (d : Calorimeter α) (blocks : List (Block α)) (past : List (Call α)) :
    Prop where
  energy : ∀ b ∈ blocks, (d.channel? b.id).map (·.energy) =
    some ((Call.received b.id past).foldl (· + ·) 0)
  dead : ∀ id, d.isDead id = true ↔ id ∈ blocks.map (·.id) ∧ id ∈ Call.lastDead past
  neighbors : ∀ b ∈ blocks, d.deadNeighbors b.id = (blocks.filter fun e =>
    e.id ≠ b.id && ((Call.lastDead past).contains e.id &&
      b.place.distance e.place < cornerAdjacent)).map (·.hit 0) ∧
    ((d.deadNeighbors b.id).map (·.id)).Nodup
  calibration : ∀ b ∈ blocks,
    d.block? b.id = some { b with calibration := Call.lastCalibration b past }
  measured : ∀ form s p, (d.reconstructBy form s p).blockHits =
    (blocks.filter fun b => 0 < Call.held b.id past).map (fun b => b.hit (Call.held b.id past)) ∧
    ((d.reconstructBy form s p).blockHits.map (·.id)).Nodup
  unknown : ∀ id, id ∉ blocks.map (·.id) → d.channel? id = none
  refused : ∀ id energy, id ∉ blocks.map (·.id) ∨ id ∈ Call.lastDead past ∨ ¬ 0 < energy →
    d.respond (.addEnergy id energy) = d
  ignored : ∀ id calibration, id ∉ blocks.map (·.id) →
    d.respond (.setCalibration id calibration) = d

variable {blocks : List (Block α)} (hdistinct : (blocks.map (·.id)).Nodup)

theorem map_id_channelAfter (blocks : List (Block α)) (past : List (Call α)) :
    (blocks.map (Call.channelAfter past)).map (·.block.id) = blocks.map (·.id) := by
  rw [List.map_map]
  rfl

include hdistinct

theorem channels_after (past : List (Call α)) :
    (after blocks past).channels = blocks.map (Call.channelAfter past) := by
  -- no call changes an id, so that the ids are still different when the next one comes
  induction past with
  | nil => rfl
  | cons call past ih =>
    have hn : ((after blocks past).channels.map (·.block.id)).Nodup := by
      rw [ih, map_id_channelAfter]
      exact hdistinct
    have hcall : (after blocks (call :: past)).channels =
        (after blocks past).channels.map call.alter := channels_respond hn call
    rw [hcall, ih, List.map_map]
    exact List.map_congr_left fun b _ => Call.alter_channelAfter call past b

theorem nodup_ids_after (past : List (Call α)) :
    ((after blocks past).channels.map (·.block.id)).Nodup := by
  rw [channels_after hdistinct, map_id_channelAfter]
  exact hdistinct

/-- Where the channel of a block stands, and what it is. -/
theorem exists_channel_after (past : List (Call α)) {b : Block α} (hb : b ∈ blocks) :
    ∃ i, (after blocks past).index? b.id = some i ∧
      (after blocks past).channels[i]? = some (Call.channelAfter past b) := by
  obtain ⟨i, hi⟩ := List.mem_iff_getElem?.mp hb
  have hc : (after blocks past).channels[i]? = some (Call.channelAfter past b) := by
    rw [channels_after hdistinct, List.getElem?_map, hi, Option.map_some]
  exact ⟨i, (index?_eq_some_iff (nodup_ids_after hdistinct past) hc b.id).mpr rfl, hc⟩

theorem channel?_after (past : List (Call α)) {b : Block α} (hb : b ∈ blocks) :
    (after blocks past).channel? b.id = some (Call.channelAfter past b) := by
  obtain ⟨i, hindex, hc⟩ := exists_channel_after hdistinct past hb
  rw [channel?, hindex]
  exact hc

theorem index?_after_eq_none (past : List (Call α)) {id : Int} (hid : id ∉ blocks.map (·.id)) :
    (after blocks past).index? id = none := by
  cases hindex : (after blocks past).index? id with
  | none => rfl
  | some i =>
    obtain ⟨c, hc, rfl⟩ := block_of_index? hindex
    have hmem := List.mem_map_of_mem (f := (·.block.id)) (List.mem_of_getElem? hc)
    rw [channels_after hdistinct, map_id_channelAfter] at hmem
    exact absurd hmem hid

theorem isDead_after_iff (past : List (Call α)) (id : Int) :
    (after blocks past).isDead id = true ↔ id ∈ blocks.map (·.id) ∧ id ∈ Call.lastDead past := by
  by_cases hid : id ∈ blocks.map (·.id)
  · obtain ⟨b, hb, rfl⟩ := List.mem_map.mp hid
    rw [isDead, channel?_after hdistinct past hb]
    simp [Call.channelAfter, hid]
  · rw [isDead, channel?, index?_after_eq_none hdistinct past hid]
    simp [hid]

theorem deadNeighbors_after (past : List (Call α)) {b : Block α} (hb : b ∈ blocks) :
    (after blocks past).deadNeighbors b.id = (blocks.filter fun e =>
      e.id ≠ b.id && ((Call.lastDead past).contains e.id &&
        b.place.distance e.place < cornerAdjacent)).map (·.hit 0) := by
  obtain ⟨i, hindex, hc⟩ := exists_channel_after hdistinct past hb
  have hkept := map_fst_filter_zipIdx (nodup_ids_after hdistinct past) hc
    fun e => e.dead && b.place.distance e.block.place < cornerAdjacent
  have hhits := congrArg (List.map fun e : Channel α => e.block.hit 0) hkept
  rw [List.map_map, channels_after hdistinct, List.filter_map, List.map_map] at hhits
  rw [deadNeighbors, hindex]
  simp only [hc]
  simp only [Bool.and_assoc, channels_after hdistinct]
  exact hhits

theorem measured_after (past : List (Call α)) :
    (after blocks past).measured = (blocks.filter fun b => 0 < Call.held b.id past).map
      fun b => b.hit (Call.held b.id past) := by
  rw [measured, channels_after hdistinct, List.filter_map, List.map_map]
  rfl

theorem refused_after (past : List (Call α)) {id : Int} {energy : α}
    (hrefused : id ∉ blocks.map (·.id) ∨ id ∈ Call.lastDead past ∨ ¬ 0 < energy) :
    (after blocks past).respond (.addEnergy id energy) = after blocks past := by
  rw [respond, Calorimeter.addEnergy]
  by_cases hid : id ∈ blocks.map (·.id)
  · obtain ⟨b, hb, rfl⟩ := List.mem_map.mp hid
    obtain ⟨i, hindex, hc⟩ := exists_channel_after hdistinct past hb
    simp only [hindex, hc, Option.map_some, Option.getD_some]
    by_cases hdead : (Call.channelAfter past b).dead = true
    · rw [if_pos hdead]
    · have hlive : b.id ∉ Call.lastDead past := fun hmem =>
        hdead (List.contains_iff_mem.mpr hmem)
      rw [if_neg hdead, if_neg ((hrefused.resolve_left (not_not_intro hid)).resolve_left hlive)]
  · rw [index?_after_eq_none hdistinct past hid]

theorem recalls_after (past : List (Call α)) : (after blocks past).Recalls blocks past where
  energy b hb := by
    rw [channel?_after hdistinct past hb]
    rfl
  dead := isDead_after_iff hdistinct past
  neighbors b hb := by
    have hhits := deadNeighbors_after hdistinct past hb
    refine ⟨hhits, ?_⟩
    rw [hhits, List.map_map]
    exact hdistinct.sublist (List.filter_sublist.map _)
  calibration b hb := by
    rw [block?, channel?_after hdistinct past hb]
    rfl
  measured form s p := by
    have hhits : ((after blocks past).reconstructBy form s p).blockHits = _ :=
      measured_after hdistinct past
    refine ⟨hhits, ?_⟩
    rw [hhits, List.map_map]
    exact hdistinct.sublist (List.filter_sublist.map _)
  unknown id hid := by
    rw [channel?, index?_after_eq_none hdistinct past hid]
    rfl
  refused _ _ hrefused := refused_after hdistinct past hrefused
  ignored id calibration hid := by
    rw [respond, Calorimeter.setCalibration, index?_after_eq_none hdistinct past hid]

end Run

end Calorimeter

namespace Checked.Arena

variable [Elementary α]

def respond (a : Arena α) : Calorimeter.Call α → Option (Arena α)
  | .setDead ids => a.setDead ids
  | .setCalibration id calibration => (a.setCalibration id calibration).map (·.1)
  | .applyCalibrations cs => (a.applyCalibrations cs).map (·.1)
  | .addEnergy id energy => (a.addEnergy id energy).map (·.1)
  | .clear => some a.clear
  | .reconstruct form s fraction =>
    a.reconstructBy (fun hits => some (form hits)) s (.ofFractions fraction)

theorem respond_ofCalorimeter (d : Calorimeter α) (call : Calorimeter.Call α) :
    (ofCalorimeter d).respond call = some (ofCalorimeter (d.respond call)) := by
  cases call with
  | setDead ids => exact setDead_ofCalorimeter d ids
  | setCalibration id calibration =>
    rw [respond, setCalibration_ofCalorimeter]
    rfl
  | applyCalibrations cs =>
    rw [respond, applyCalibrations_ofCalorimeter]
    rfl
  | addEnergy id energy =>
    rw [respond, addEnergy_ofCalorimeter]
    rfl
  | clear => exact congrArg some (clear_ofCalorimeter d)
  | reconstruct form s fraction =>
    exact reconstructBy_ofCalorimeter (Profile.full_ofFractions fraction) d s fun _ => rfl

theorem foldlM_respond (d : Calorimeter α) (calls : List (Calorimeter.Call α)) :
    calls.foldlM respond (ofCalorimeter d) =
      some (ofCalorimeter (calls.foldl Calorimeter.respond d)) := by
  induction calls generalizing d with
  | nil => rfl
  | cons call calls ih =>
    rw [List.foldlM_cons, respond_ofCalorimeter, Option.bind_eq_bind, Option.bind_some, ih]
    rfl

end Checked.Arena

namespace Calorimeter

/-- After any calls, a calorimeter of different blocks holds what the calls say, and refused calls
have left no trace. The tables of positions, marks, neighbors and energies are those of this state,
so that the neighbors on record are the dead blocks nearby. -/
theorem state_of_calls [Elementary α] (blocks : List (Block α))
    (hdistinct : (blocks.map (·.id)).Nodup) (calls : List (Call α)) :
    let d := calls.foldl respond (ofBlocks blocks)
    d.Recalls blocks calls.reverse ∧
      calls.foldlM Checked.Arena.respond (.build blocks) = some (.ofCalorimeter d) ∧
      ∀ id, (Checked.Arena.ofCalorimeter d).deadNeighbors id = some (d.deadNeighbors id) := by
  intro d
  have hd : d = after blocks calls.reverse := by
    rw [after, List.foldr_reverse]
  refine ⟨hd ▸ recalls_after hdistinct calls.reverse, ?_, ?_⟩
  · rw [Checked.Arena.build_eq]
    exact Checked.Arena.foldlM_respond (ofBlocks blocks) calls
  · exact Checked.Arena.deadNeighbors_ofCalorimeter d

/-- Energy from before a clearing, for a dead block, and a negative one; a block of an earlier list
lives again. -/
theorem state_of_calls_of_two_lists :
    let blocks : List (Block Float32) := [Sectors.crystal 0 0, Sectors.crystal 0 1,
      Sectors.crystal 0 2]
    let calls : List (Call Float32) := [.addEnergy 1001 30, .clear, .addEnergy 1001 20,
      .setDead [1001, 1003], .addEnergy 1001 5, .setDead [1002, 7], .addEnergy 1002 9,
      .addEnergy 1001 (-1), .addEnergy 1001 2.5]
    let d := calls.foldl respond (ofBlocks blocks)
    (blocks.map (·.id)).Nodup ∧ d.Recalls blocks calls.reverse ∧
      Call.received 1001 calls.reverse = [20, 2.5] ∧
      (d.deadNeighbors 1001).map (·.id) = [1002] := by
  intro blocks calls d
  have hdistinct : (blocks.map (·.id)).Nodup := by decide +kernel
  have hstate := state_of_calls blocks hdistinct calls
  exact ⟨hdistinct, hstate.1, by decide +kernel, by decide +kernel⟩

end Calorimeter

end ShowerTrack
