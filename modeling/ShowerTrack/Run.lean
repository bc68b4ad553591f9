import ShowerTrack.Calorimeter.Shape
import ShowerTrack.Failure
import ShowerTrack.Records.Config
import ShowerTrack.Records.Pedestals
import ShowerTrack.Records.Results
import ShowerTrack.Records.Setup
import ShowerTrack.Text.Timestamp
import ShowerTrack.Workers

/-!
# Runs

A run reads the files that its configuration names, reconstructs the events with all
its workers, and writes one file. What it says along the way is kept in a log.
-/

set_option autoImplicit false

namespace ShowerTrack

structure LogLine where
  severity : Severity
  text : String
  deriving DecidableEq, Repr

def Notice.line (n : Notice) : LogLine := ⟨n.severity, n.text⟩

/-- What a run leaves behind, also when it fails. -/
structure Session where
  folder : Folder
  log : List LogLine
  statuses : List (Status Float32)

abbrev Run (α : Type) : Type := ExceptT RunError (StateM Session) α

namespace Run

/-- Adds lines to the log. Debug lines are left out of it. -/
def logAll (lines : List LogLine) : Run Unit :=
  modify fun s => { s with log := s.log ++ lines.filter (·.severity != .debug) }

def log (severity : Severity) (text : String) : Run Unit := logAll [⟨severity, text⟩]

def info (text : String) : Run Unit := log .info text

def warn (text : String) : Run Unit := log .warning text

def attempt {α : Type} (result : Except FileError α) : Run α :=
  match result with
  | .ok x => return x
  | .error e => throw (.file e)

def loadAs {α : Type} (topic : Topic) (path : String) (reader : String → Option α) : Run α := do
  attempt ((← get).folder.loadAs topic path reader)

def save (topic : Topic) (path content : String) : Run Unit := do
  let folder ← attempt ((← get).folder.save topic path content)
  modify fun s => { s with folder }

def setupLines (s : Setup) : List LogLine :=
  (s.warnings.map fun w => ⟨.warning, w.text⟩) ++
    s.unknown.map fun key =>
      ⟨.warning, "Unrecognized reconstruction setting " ++ key.text ++ " is ignored"⟩

def readSetup (folder : Folder) (path : String) : Except FileError Setup := do
  match Setup.read (← folder.load .configuration path) with
  | .ok s => .ok s
  | .error .notYaml => .error (.malformed .configuration)
  | .error .notMapping => .error .notMapping

def loadSetup (c : Config) : Run Setup := do
  let some path := c.settingsPath | return .standard
  let setup ← attempt (readSetup (← get).folder path)
  logAll (setupLines setup)
  if !setup.warnings.isEmpty then
    warn (toString setup.warnings.length ++
      " reconstruction settings were replaced by their defaults")
  return setup

def loadAlignment (c : Config) : Run (Alignment Float32) := do
  let some path := c.framePath | return .nominal
  let frames ← loadAs .coordinates path DetectorFrame.readList?
  if let some first := Alignment.chosenRun frames c.run then
    if c.run < first then
      warn ("No coordinates defined before run " ++ toString c.run ++
        ", using those of run " ++ toString first)
  match Alignment.ofEntries frames c.run with
  | .ok a => return a
  | .error e => throw (.file (.noFrames e))

def loadPedestals (c : Config) : Run (PedestalTable Float32) :=
  match c.pedestalPath with
  | some path => loadAs .pedestals path PedestalTable.read?
  | none => return ∅

def loadCalibrations (c : Config) : Run (List (BlockCalibration Float32)) :=
  match c.calibrationPath with
  | some path => loadAs .calibration path BlockCalibration.readList?
  | none => return []

def loadEvents (c : Config) : Run (Array (RawEvent Float32)) := do
  info ("Reading event file " ++ c.eventPath ++ " (" ++
    Text.size ((← get).folder.size c.eventPath) ++ ")")
  let events ← loadAs .events c.eventPath RawEvent.readList?
  info ("Read " ++ toString events.length ++ " events")
  return events.toArray

def build (settings : Settings Float32) (alignment : Alignment Float32)
    (pedestals : PedestalTable Float32) (calibrations : List (BlockCalibration Float32)) :
    Run (Reconstructor Float32) := do
  logAll ((Reconstructor.buildNotices settings).map Notice.line)
  let r := Reconstructor.build settings .standard alignment pedestals
  logAll ((r.calibrationNotices calibrations).map Notice.line)
  let (r, applied) := r.applyCalibrations calibrations
  info ("Applied " ++ toString applied ++ " of " ++ toString calibrations.length ++
    " HyCal module calibrations")
  return r

def report (c : Config) (phase : Phase) (events : Nat) : Run Unit :=
  modify fun s =>
    { s with statuses := Status.reports c.run phase (subsets events c.workers.toNat) }

def writePedestals (c : Config) (r : Reconstructor Float32)
    (events : Array (RawEvent Float32)) : Run Unit := do
  report c .pedestals events.size
  let table := r.pedestalRun (β := Float) events c.workers.toNat
  save .pedestals c.outputPath table.text
  info ("Wrote " ++ toString table.size ++ " pedestals to " ++ c.outputPath)

def writeEvents (created : String) (c : Config) (r : Reconstructor Float32)
    (events : Array (RawEvent Float32)) : Run Unit := do
  report c .reconstructing events.size
  let (done, notices) := r.physicsRun events c.workers.toNat
  logAll (notices.map Notice.line)
  save .events c.outputPath (Results.text ⟨created, c.run, done⟩)
  info ("Wrote " ++ toString done.length ++ " reconstructed events to " ++ c.outputPath)

def perform (created : String) (c : Config) : Run Unit := do
  if !c.hasWorkers then throw (.workerCount c.workers)
  let setup ← loadSetup c
  let alignment ← loadAlignment c
  info ("Using detector coordinates of run " ++ toString alignment.run ++ " for run " ++
    toString c.run)
  let pedestals ← loadPedestals c
  info ("Loaded " ++ toString pedestals.size ++ " GEM strip pedestals")
  let calibrations ← loadCalibrations c
  let events ← loadEvents c
  let r ← build setup.settings alignment pedestals calibrations
  if c.isPedestalRun then writePedestals c r events else writeEvents created c r events

end Run

def Config.perform (c : Config) (created : String) (folder : Folder) :
    Except RunError Unit × Session :=
  ((Run.perform created c).run).run ⟨folder, [], []⟩

end ShowerTrack
