import ShowerTrack.Proofs.Checked.Arena
import ShowerTrack.Proofs.Checked.Chamber
import ShowerTrack.Reconstructor

/-!
# Checked sessions

The reconstructor with its trackers and the frames of its detectors in tables. A session makes one
and then calls it again and again. No call looks up a position that does not exist or takes a
difference or a product that does not fit its word, whatever the settings, the calibrations and the
events are: every session has the replies of the reconstructor without checks.
-/

set_option autoImplicit false

namespace ShowerTrack

variable {α β : Type}

inductive Call (α : Type) where
  | calibrate (calibrations : List (BlockCalibration α))
  | reconstruct (event : RawEvent α)
  | accumulate (event : RawEvent α)

inductive Reply (α : Type) where
  | calibrated (found : Nat)
  | reconstructed (event : Event α)
  | accumulated

namespace Reconstructor

structure Sound (r : Reconstructor α) : Prop where
  first : r.gem1.Sound
  second : r.gem2.Sound
  gem1 : r.gem1.detector = .gem1
  gem2 : r.gem2.detector = .gem2
  full : r.profile.Full

theorem Sound.withCalorimeter {r : Reconstructor α} (h : r.Sound) (calorimeter : Calorimeter α) :
    Sound { r with calorimeter } :=
  ⟨h.first, h.second, h.gem1, h.gem2, h.full⟩

variable [Elementary α]

section Answers

variable [Scalar β] [Widening α β]

/-- Answers a call. Levels are collected beside the reconstructor. -/
def answer (r : Reconstructor α) (levels : Levels β) : Call α → Reconstructor α × Levels β × Reply α
  | .calibrate cs =>
    let (r, found) := r.applyCalibrations cs
    (r, levels, .calibrated found)
  | .reconstruct e =>
    let (r, event) := r.reconstruct e
    (r, levels, .reconstructed event)
  | .accumulate e => (r, r.addLevels levels e, .accumulated)

def answers (r : Reconstructor α) (levels : Levels β) :
    List (Call α) → Reconstructor α × Levels β × List (Reply α)
  | [] => (r, levels, [])
  | call :: calls =>
    let (r, levels, reply) := r.answer levels call
    let (r, levels, replies) := answers r levels calls
    (r, levels, reply :: replies)

end Answers

theorem sound_build (settings : Settings α) (fraction : BlockKind → α → α → α)
    (alignment : Alignment α) (pedestals : PedestalTable α) :
    (build settings (.ofFractions fraction) alignment pedestals).Sound := by
  have hgem1 : (build settings (.ofFractions fraction) alignment pedestals).gem1 =
      .standard .gem1 := by rw [build]
  have hgem2 : (build settings (.ofFractions fraction) alignment pedestals).gem2 =
      .standard .gem2 := by rw [build]
  constructor
  · exact hgem1 ▸ Chamber.sound_standard .gem1
  · exact hgem2 ▸ Chamber.sound_standard .gem2
  · exact hgem1 ▸ Chamber.detector_standard .gem1
  · exact hgem2 ▸ Chamber.detector_standard .gem2
  · exact Profile.full_ofFractions fraction

namespace Sound

variable {r : Reconstructor α} (h : r.Sound)

include h

theorem clear : r.clear.Sound :=
  ⟨h.first.clear, h.second.clear, h.gem1, h.gem2, h.full⟩

theorem fillBlocks (bs : List (BlockEnergy α)) : (fillBlocks bs r).1.Sound := by
  induction bs generalizing r with
  | nil => exact h
  | cons b bs ih => exact ih (h.withCalorimeter _)

theorem fillStrip (event : Nat) (s : StripSamples α) : (r.fillStrip event s).1.Sound := by
  rw [Reconstructor.fillStrip]
  cases s.key.detector with
  | hyCal => exact h
  | gem1 =>
    cases r.charge? s with
    | none => exact h
    | some charge =>
      have hdetector := congrArg Chamber.detector (r.gem1.clear_add s.key.plane s.key.strip charge)
      exact ⟨h.first.add _ _ _, h.second, hdetector.trans h.gem1, h.gem2, h.full⟩
  | gem2 =>
    cases r.charge? s with
    | none => exact h
    | some charge =>
      have hdetector := congrArg Chamber.detector (r.gem2.clear_add s.key.plane s.key.strip charge)
      exact ⟨h.first, h.second.add _ _ _, h.gem1, hdetector.trans h.gem2, h.full⟩

theorem fillStrips (event : Nat) (ss : List (StripSamples α)) :
    (fillStrips event ss r).1.Sound := by
  induction ss generalizing r with
  | nil => exact h
  | cons s ss ih => exact ih (h.fillStrip event s)

theorem fill (e : RawEvent α) : (r.fill e).1.Sound := (h.fillBlocks e.blocks).fillStrips _ _

theorem runDetectors : r.runDetectors.Sound := by
  have hgem1 := congrArg Chamber.detector (r.gem1.clear_reconstruct r.settings.tracker)
  have hgem2 := congrArg Chamber.detector (r.gem2.clear_reconstruct r.settings.tracker)
  exact ⟨h.first.reconstruct _, h.second.reconstruct _, hgem1.trans h.gem1, hgem2.trans h.gem2,
    h.full⟩

theorem reconstruct (e : RawEvent α) : (r.reconstruct e).1.Sound := (h.clear.fill e).runDetectors

theorem answer [Scalar β] [Widening α β] (levels : Levels β) (call : Call α) :
    (r.answer levels call).1.Sound := by
  cases call with
  | calibrate cs => exact h.withCalorimeter _
  | reconstruct e => exact h.reconstruct e
  | accumulate e => exact h

end Sound

end Reconstructor

namespace Checked

structure Machine (α : Type) where
  arena : Arena α
  stations : Array (Station α)
  settings : Settings α
  profile : Profile α
  frames : Array (DetectorFrame α)
  pedestals : PedestalTable α

namespace Machine

variable [Elementary α]

def ofReconstructor (r : Reconstructor α) : Machine α :=
  { arena := .ofCalorimeter r.calorimeter
    stations := #[.ofChamber r.gem1, .ofChamber r.gem2]
    settings := r.settings
    profile := r.profile
    frames := #[r.alignment.hyCal, r.alignment.gem1, r.alignment.gem2]
    pedestals := r.pedestals }

def build (settings : Settings α) (profile : Profile α) (alignment : Alignment α)
    (pedestals : PedestalTable α) : Option (Machine α) := do
  let arena ← Arena.standard
  let arena ← arena.setDead settings.deadBlocks
  let gem1 ← Station.standard .gem1
  let gem2 ← Station.standard .gem2
  some
    { arena, settings, profile, pedestals
      stations := #[gem1, gem2]
      frames := #[alignment.hyCal, alignment.gem1, alignment.gem2] }

def applyCalibrations (m : Machine α) (cs : List (BlockCalibration α)) :
    Option (Machine α × Nat) := do
  let (arena, found) ← m.arena.applyCalibrations cs
  some ({ m with arena }, found)

def clear (m : Machine α) : Machine α :=
  { m with arena := m.arena.clear, stations := m.stations.map Station.clear }

def fillBlock (m : Machine α) (b : BlockEnergy α) : Option (Machine α) := do
  let (arena, _) ← m.arena.addEnergy b.id b.energy
  some { m with arena }

def fillStrip (m : Machine α) (s : StripSamples α) : Option (Machine α) :=
  match m.stations.toList.findIdx? (·.detector == s.key.detector) with
  | none => some m
  | some i =>
    match stripOutput .physics s.samples (m.pedestals.pedestal s.key)
      m.settings.tracker.zeroSuppression with
    | .hit charge => do
      let stations ← edit m.stations i fun t =>
        (t.add s.key.plane s.key.strip charge).map (·.1)
      some { m with stations }
    | _ => some m

def fill (m : Machine α) (e : RawEvent α) : Option (Machine α) := do
  let m ← e.blocks.foldlM fillBlock m
  e.strips.foldlM fillStrip m

def runDetectors (m : Machine α) : Option (Machine α) := do
  let arena ← m.arena.reconstruct m.settings.calorimeter m.profile
  let stations ← m.stations.toList.mapM (·.reconstruct m.settings.tracker)
  some { m with arena, stations := stations.toArray }

def transform (m : Machine α) (detector : Detector) (p : Point α) : Option (Point α) := do
  let frame ← m.frames[detector.index]?
  some (frame.transform p)

def readOut (m : Machine α) (number : Nat) : Option (Event α) := do
  let caloHits ← m.arena.hits.mapM fun h => (m.transform .hyCal h.point).map h.at
  let trackerHits ← m.stations.toList.mapM fun t =>
    t.hits.mapM fun h => (m.transform t.detector h.point).map h.at
  let gem1Hits ← trackerHits[0]?
  let gem2Hits ← trackerHits[1]?
  let gem1 ← m.stations[0]?
  let gem2 ← m.stations[1]?
  some
    { number, caloHits, gem1Hits, gem2Hits
      matched := m.settings.matching.matchHits caloHits gem1Hits gem2Hits
      overflow := ⟨m.arena.overflow, gem1.overflow, gem2.overflow⟩ }

def reconstruct (m : Machine α) (e : RawEvent α) : Option (Machine α × Event α) := do
  let m ← m.clear.fill e
  let m ← m.runDetectors
  let event ← m.readOut e.number
  some (m, event)

section Calls

variable [Scalar β] [Widening α β]

def addLevel (m : Machine α) (levels : Levels β) (s : StripSamples α) : Levels β :=
  match stripOutput .pedestal s.samples (m.pedestals.pedestal s.key)
    m.settings.tracker.zeroSuppression with
  | .level level => levels.add s.key level
  | _ => levels

def answer (m : Machine α) (levels : Levels β) : Call α → Option (Machine α × Levels β × Reply α)
  | .calibrate cs => do
    let (m, found) ← m.applyCalibrations cs
    some (m, levels, .calibrated found)
  | .reconstruct e => do
    let (m, event) ← m.reconstruct e
    some (m, levels, .reconstructed event)
  | .accumulate e => some (m, e.strips.foldl m.addLevel levels, .accumulated)

def answers (m : Machine α) (levels : Levels β) :
    List (Call α) → Option (Machine α × Levels β × List (Reply α))
  | [] => some (m, levels, [])
  | call :: calls => do
    let (m, levels, reply) ← m.answer levels call
    let (m, levels, replies) ← answers m levels calls
    some (m, levels, reply :: replies)

end Calls

theorem build_eq (settings : Settings α) (profile : Profile α) (alignment : Alignment α)
    (pedestals : PedestalTable α) : build settings profile alignment pedestals =
      some (ofReconstructor (.build settings profile alignment pedestals)) := by
  simp only [build, Arena.standard_eq, Arena.setDead_ofCalorimeter, Station.standard_eq,
    Option.bind_eq_bind, Option.bind_some, Reconstructor.build, ofReconstructor]

theorem pedestals_ofReconstructor (r : Reconstructor α) :
    (ofReconstructor r).pedestals = r.pedestals := rfl

theorem settings_ofReconstructor (r : Reconstructor α) :
    (ofReconstructor r).settings = r.settings := rfl

theorem addLevel_ofReconstructor [Scalar β] [Widening α β] (r : Reconstructor α)
    (levels : Levels β) (s : StripSamples α) :
    (ofReconstructor r).addLevel levels s = r.addLevel levels s := by
  rw [addLevel, Reconstructor.addLevel, Reconstructor.level?, pedestals_ofReconstructor,
    settings_ofReconstructor]
  cases stripOutput .pedestal s.samples (r.pedestals.pedestal s.key)
    r.settings.tracker.zeroSuppression with
  | hit => rfl
  | suppressed => rfl
  | level => rfl

theorem applyCalibrations_ofReconstructor (r : Reconstructor α) (cs : List (BlockCalibration α)) :
    (ofReconstructor r).applyCalibrations cs =
      some (ofReconstructor (r.applyCalibrations cs).1, (r.applyCalibrations cs).2) := by
  have harena := Arena.applyCalibrations_ofCalorimeter r.calorimeter cs
  rw [applyCalibrations]
  change ((Arena.ofCalorimeter r.calorimeter).applyCalibrations cs).bind _ = _
  rw [harena]
  rfl

theorem foldlM_fillBlock (r : Reconstructor α) (bs : List (BlockEnergy α)) :
    bs.foldlM fillBlock (ofReconstructor r) =
      some (ofReconstructor (Reconstructor.fillBlocks bs r).1) := by
  induction bs generalizing r with
  | nil => rfl
  | cons b bs ih =>
    have harena : (ofReconstructor r).arena.addEnergy b.id b.energy =
        some (.ofCalorimeter (r.calorimeter.addEnergy b.id b.energy).1,
          (r.calorimeter.addEnergy b.id b.energy).2) := Arena.addEnergy_ofCalorimeter _ _ _
    have hblock : fillBlock (ofReconstructor r) b = some (ofReconstructor (r.fillBlock b).1) := by
      rw [fillBlock, harena]
      rfl
    rw [List.foldlM_cons, hblock, Option.bind_eq_bind, Option.bind_some, ih]
    rfl

theorem transform_ofReconstructor (r : Reconstructor α) (detector : Detector) (p : Point α) :
    (ofReconstructor r).transform detector p = some (r.alignment.transform detector p) := by
  cases detector <;> rfl

theorem readOut_ofReconstructor (r : Reconstructor α) (number : Nat) :
    (ofReconstructor r).readOut number = some (r.readOut number) := by
  have hcalo : (ofReconstructor r).arena.hits.mapM (fun x =>
      ((ofReconstructor r).transform .hyCal x.point).map x.at) =
        some (r.alignment.alignCalo r.calorimeter.hits) :=
    mapM_eq fun x _ => by rw [transform_ofReconstructor]; rfl
  have htracker : ∀ c : Chamber α, (Station.ofChamber c).hits.mapM (fun x =>
      ((ofReconstructor r).transform (Station.ofChamber c).detector x.point).map x.at) =
        some (r.alignment.alignTracker c.detector c.hits) := fun c =>
    mapM_eq fun x _ => by rw [transform_ofReconstructor]; rfl
  have hstations : (ofReconstructor r).stations.toList.mapM (fun t => t.hits.mapM fun x =>
      ((ofReconstructor r).transform t.detector x.point).map x.at) =
        some [r.alignment.alignTracker r.gem1.detector r.gem1.hits,
          r.alignment.alignTracker r.gem2.detector r.gem2.hits] := by
    have hlist : (ofReconstructor r).stations.toList =
        [.ofChamber r.gem1, .ofChamber r.gem2] := rfl
    rw [hlist]
    simp [htracker]
  simp only [readOut, hcalo, hstations, Option.bind_eq_bind, Option.bind_some]
  rfl

/-- Hands a charge to a chamber that stands in a table. -/
theorem edit_station {stations : Array (Station α)} {i : Nat} {c : Chamber α}
    (hread : stations[i]? = some (.ofChamber c)) (hc : c.Sound) (kind : Plane) (strip : Int)
    (charge : α) : edit stations i (fun t => (t.add kind strip charge).map (·.1)) =
      some (stations.setIfInBounds i (.ofChamber (c.add kind strip charge).1)) := by
  apply edit_eq hread
  rw [Station.add_ofChamber hc]
  rfl

variable {r : Reconstructor α} (h : r.Sound)

include h

theorem clear_ofReconstructor : (ofReconstructor r).clear = ofReconstructor r.clear := by
  simp [clear, ofReconstructor, Arena.clear_ofCalorimeter, Station.clear_ofChamber h.first,
    Station.clear_ofChamber h.second, Reconstructor.clear]

theorem fillStrip_ofReconstructor (event : Nat) (s : StripSamples α) :
    (ofReconstructor r).fillStrip s = some (ofReconstructor (r.fillStrip event s).1) := by
  have hdetectors : (ofReconstructor r).stations.toList.findIdx? (·.detector == s.key.detector) =
      [r.gem1.detector, r.gem2.detector].findIdx? (· == s.key.detector) := rfl
  rw [h.gem1, h.gem2] at hdetectors
  rw [fillStrip, hdetectors, pedestals_ofReconstructor, settings_ofReconstructor,
    Reconstructor.fillStrip, Reconstructor.charge?]
  cases s.key.detector with
  | hyCal => rfl
  | gem1 =>
    have hread : (ofReconstructor r).stations[0]? = some (.ofChamber r.gem1) := rfl
    cases stripOutput .physics s.samples (r.pedestals.pedestal s.key)
      r.settings.tracker.zeroSuppression with
    | suppressed => rfl
    | level => rfl
    | hit charge =>
      have hedit := edit_station hread h.first s.key.plane s.key.strip charge
      change (edit (ofReconstructor r).stations 0 _).bind _ = _
      rw [hedit]
      rfl
  | gem2 =>
    have hread : (ofReconstructor r).stations[1]? = some (.ofChamber r.gem2) := rfl
    cases stripOutput .physics s.samples (r.pedestals.pedestal s.key)
      r.settings.tracker.zeroSuppression with
    | suppressed => rfl
    | level => rfl
    | hit charge =>
      have hedit := edit_station hread h.second s.key.plane s.key.strip charge
      change (edit (ofReconstructor r).stations 1 _).bind _ = _
      rw [hedit]
      rfl

theorem foldlM_fillStrip (event : Nat) (ss : List (StripSamples α)) :
    ss.foldlM fillStrip (ofReconstructor r) =
      some (ofReconstructor (Reconstructor.fillStrips event ss r).1) := by
  induction ss generalizing r with
  | nil => rfl
  | cons s ss ih =>
    rw [List.foldlM_cons, fillStrip_ofReconstructor h event s, Option.bind_eq_bind,
      Option.bind_some, ih (h.fillStrip event s)]
    rfl

theorem fill_ofReconstructor (e : RawEvent α) :
    (ofReconstructor r).fill e = some (ofReconstructor (r.fill e).1) := by
  rw [fill, foldlM_fillBlock, Option.bind_eq_bind, Option.bind_some,
    foldlM_fillStrip (h.fillBlocks e.blocks) e.number]
  rfl

theorem runDetectors_ofReconstructor :
    (ofReconstructor r).runDetectors = some (ofReconstructor r.runDetectors) := by
  have harena := Arena.reconstruct_ofCalorimeter h.full r.calorimeter r.settings.calorimeter
  simp [runDetectors, ofReconstructor, harena, Station.reconstruct_ofChamber h.first,
    Station.reconstruct_ofChamber h.second, Reconstructor.runDetectors]

theorem reconstruct_ofReconstructor (e : RawEvent α) :
    (ofReconstructor r).reconstruct e =
      some (ofReconstructor (r.reconstruct e).1, (r.reconstruct e).2) := by
  have hfill := h.clear.fill e
  simp only [reconstruct, clear_ofReconstructor h, fill_ofReconstructor h.clear,
    runDetectors_ofReconstructor hfill, readOut_ofReconstructor,
    Option.bind_eq_bind, Option.bind_some]
  rfl

section Calls

variable [Scalar β] [Widening α β]

theorem answer_ofReconstructor (levels : Levels β) (call : Call α) :
    (ofReconstructor r).answer levels call =
      some (ofReconstructor (r.answer levels call).1, (r.answer levels call).2) := by
  cases call with
  | calibrate cs =>
    rw [answer, applyCalibrations_ofReconstructor]
    rfl
  | reconstruct e =>
    rw [answer, reconstruct_ofReconstructor h]
    rfl
  | accumulate e =>
    have hlevels : (ofReconstructor r).addLevel = r.addLevel (β := β) := by
      funext levels s
      exact addLevel_ofReconstructor r levels s
    rw [answer, hlevels]
    rfl

theorem answers_ofReconstructor (levels : Levels β) (calls : List (Call α)) :
    (ofReconstructor r).answers levels calls =
      some (ofReconstructor (r.answers levels calls).1, (r.answers levels calls).2) := by
  induction calls generalizing r levels with
  | nil => rfl
  | cons call calls ih =>
    have hrest := ih (h.answer levels call) (r.answer levels call).2.1
    simp only [answers, answer_ofReconstructor h levels call, Option.bind_eq_bind,
      Option.bind_some, hrest]
    rfl

end Calls

end Machine

/-- A reconstructor that is made and then called, with the levels collected and the replies. -/
def session [Elementary α] [Scalar β] [Widening α β] (settings : Settings α) (profile : Profile α)
    (alignment : Alignment α) (pedestals : PedestalTable α) (levels : Levels β)
    (calls : List (Call α)) : Option (Levels β × List (Reply α)) := do
  let m ← Machine.build settings profile alignment pedestals
  let (_, levels, replies) ← m.answers levels calls
  some (levels, replies)

/-- No position, difference or product of a session is out of range. -/
theorem session_total [Elementary α] [Scalar β] [Widening α β] (settings : Settings α)
    (fraction : BlockKind → α → α → α) (alignment : Alignment α) (pedestals : PedestalTable α)
    (levels : Levels β) (calls : List (Call α)) :
    session settings (.ofFractions fraction) alignment pedestals levels calls =
      some ((Reconstructor.build settings (.ofFractions fraction) alignment pedestals).answers
        levels calls).2 := by
  have hsound := Reconstructor.sound_build settings fraction alignment pedestals
  rw [session, Machine.build_eq]
  simp only [Option.bind_eq_bind, Option.bind_some,
    Machine.answers_ofReconstructor hsound levels calls]

end Checked

end ShowerTrack
