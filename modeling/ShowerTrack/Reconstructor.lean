import ShowerTrack.Calorimeter.State
import ShowerTrack.Notice

/-!
# Event reconstruction

A reconstructor owns the detectors and takes one event after the other through
clustering, alignment and matching. It clears the detectors before each event.
-/

set_option autoImplicit false

namespace ShowerTrack

structure Reconstructor (α : Type) where
  calorimeter : Calorimeter α
  gem1 : Chamber α
  gem2 : Chamber α
  settings : Settings α
  profile : Profile α
  alignment : Alignment α
  pedestals : PedestalTable α

namespace Reconstructor

variable {α : Type} [Elementary α]

def build (settings : Settings α) (profile : Profile α) (alignment : Alignment α)
    (pedestals : PedestalTable α) : Reconstructor α :=
  { calorimeter := Calorimeter.standard.setDead settings.deadBlocks
    gem1 := .standard .gem1
    gem2 := .standard .gem2
    settings, profile, alignment, pedestals }

def applyCalibrations (r : Reconstructor α) (cs : List (BlockCalibration α)) :
    Reconstructor α × Nat :=
  let (calorimeter, n) := r.calorimeter.applyCalibrations cs
  ({ r with calorimeter }, n)

def clear (r : Reconstructor α) : Reconstructor α :=
  { r with calorimeter := r.calorimeter.clear, gem1 := r.gem1.clear, gem2 := r.gem2.clear }

def fillBlock (r : Reconstructor α) (b : BlockEnergy α) : Reconstructor α × List Notice :=
  let (calorimeter, reception) := r.calorimeter.addEnergy b.id b.energy
  ({ r with calorimeter },
    match reception with
    | .taken => []
    | .dead => [.deadBlockEnergy b.id]
    | .unknown => [.unknownBlockEnergy b.id])

def refusals (key : StripKey) (strips : Nat) : Acceptance → List Notice
  | .taken => []
  | .guarded => []
  | .outside => [.stripOutside key.strip key.plane strips]
  | .repeated => [.stripRepeated key.strip key.plane]

def fire (c : Chamber α) (key : StripKey) (charge : α) : Chamber α × List Notice :=
  let (d, acceptance) := c.add key.plane key.strip charge
  (d, refusals key (c.plane key.plane).strips acceptance)

def charge? (r : Reconstructor α) (s : StripSamples α) : Option α :=
  match stripOutput .physics s.samples (r.pedestals.pedestal s.key)
    r.settings.tracker.zeroSuppression with
  | .hit charge => some charge
  | _ => none

def fillStrip (r : Reconstructor α) (event : Nat) (s : StripSamples α) :
    Reconstructor α × List Notice :=
  match s.key.detector with
  | .hyCal => (r, [.notATracker event .hyCal])
  | .gem1 =>
    match r.charge? s with
    | some charge =>
      let (gem1, notices) := fire r.gem1 s.key charge
      ({ r with gem1 }, notices)
    | none => (r, [])
  | .gem2 =>
    match r.charge? s with
    | some charge =>
      let (gem2, notices) := fire r.gem2 s.key charge
      ({ r with gem2 }, notices)
    | none => (r, [])

def fillBlocks : List (BlockEnergy α) → Reconstructor α → Reconstructor α × List Notice
  | [], r => (r, [])
  | b :: bs, r =>
    let (r, now) := r.fillBlock b
    let (r, later) := fillBlocks bs r
    (r, now ++ later)

def fillStrips (event : Nat) :
    List (StripSamples α) → Reconstructor α → Reconstructor α × List Notice
  | [], r => (r, [])
  | s :: ss, r =>
    let (r, now) := r.fillStrip event s
    let (r, later) := fillStrips event ss r
    (r, now ++ later)

def fill (r : Reconstructor α) (e : RawEvent α) : Reconstructor α × List Notice :=
  let (r, blockNotices) := fillBlocks e.blocks r
  let (r, stripNotices) := fillStrips e.number e.strips r
  (r, blockNotices ++ stripNotices)

def runDetectors (r : Reconstructor α) : Reconstructor α :=
  { r with
    calorimeter := r.calorimeter.reconstruct r.settings.calorimeter r.profile
    gem1 := r.gem1.reconstruct r.settings.tracker
    gem2 := r.gem2.reconstruct r.settings.tracker }

def readOut (r : Reconstructor α) (number : Nat) : Event α :=
  let caloHits := r.alignment.alignCalo r.calorimeter.hits
  let gem1Hits := r.alignment.alignTracker r.gem1.detector r.gem1.hits
  let gem2Hits := r.alignment.alignTracker r.gem2.detector r.gem2.hits
  { number, caloHits, gem1Hits, gem2Hits
    matched := r.settings.matching.matchHits caloHits gem1Hits gem2Hits
    overflow := ⟨r.calorimeter.overflow, r.gem1.overflow, r.gem2.overflow⟩ }

def reconstruct (r : Reconstructor α) (e : RawEvent α) : Reconstructor α × Event α :=
  let r := (r.clear.fill e).1.runDetectors
  (r, r.readOut e.number)

def chamberNotices (c : Chamber α) : List Notice :=
  match c.unread? with
  | some plane => [.unreadPlane c.detector plane]
  | none => if 0 < c.overflow then [.trackerOverflow c.detector c.overflow] else []

def eventNotices (e : Event α) : List Notice :=
  if 0 < e.overflow.total then [.eventOverflow e.number e.overflow] else []

def notices (r : Reconstructor α) (e : RawEvent α) : List Notice :=
  let done := (r.reconstruct e).1
  (r.clear.fill e).2 ++
    (if 0 < done.calorimeter.overflow then [.caloOverflow done.calorimeter.overflow] else []) ++
    chamberNotices done.gem1 ++ chamberNotices done.gem2 ++
    eventNotices (done.readOut e.number)

def buildNotices (settings : Settings α) : List Notice :=
  let d : Calorimeter α := .standard
  let size := settings.calorimeter.squareSize
  (settings.deadBlocks.filter fun id => (d.index? id).isNone).map .unknownDeadBlock ++
    if settings.calorimeter.method == .square && Square.windowSize size != size then
      [.evenWindow size (Square.windowSize size)]
    else []

def calibrationNotices (r : Reconstructor α) (cs : List (BlockCalibration α)) : List Notice :=
  (cs.filter fun c => (r.calorimeter.index? c.id).isNone).map fun c =>
    .unknownCalibratedBlock c.id

def level? (r : Reconstructor α) (s : StripSamples α) : Option α :=
  match stripOutput .pedestal s.samples (r.pedestals.pedestal s.key)
    r.settings.tracker.zeroSuppression with
  | .level l => some l
  | _ => none

def addLevel {β : Type} [Scalar β] [Widening α β] (r : Reconstructor α) (l : Levels β)
    (s : StripSamples α) : Levels β :=
  match r.level? s with
  | some level => l.add s.key level
  | none => l

def addLevels {β : Type} [Scalar β] [Widening α β] (r : Reconstructor α) (l : Levels β)
    (e : RawEvent α) : Levels β :=
  e.strips.foldl r.addLevel l

end Reconstructor

end ShowerTrack
