import ShowerTrack.Alignment
import ShowerTrack.Folder
import ShowerTrack.Text.Quoted

/-!
# Failures

Why a run ends early, in the words of the log.
-/

set_option autoImplicit false

namespace ShowerTrack

inductive Topic where
  | configuration
  | calibration
  | coordinates
  | events
  | pedestals
  deriving DecidableEq, Repr

inductive FileError where
  | absent (topic : Topic) (path : String)
  | unusable (topic : Topic) (fault : FileFault)
  | malformed (topic : Topic)
  | notMapping
  | noFrames (cause : AlignmentError)
  deriving DecidableEq, Repr

inductive RunError where
  | workerCount (count : Int)
  | file (cause : FileError)
  deriving DecidableEq, Repr

def AlignmentError.message : AlignmentError → String
  | noEntries => "Coordinate database is empty"
  | missingDetector run detector =>
    "Run " ++ toString run ++ " does not define coordinates for detector " ++ detector.title

namespace Topic

def label : Topic → String
  | configuration => "Config"
  | calibration => "calibration"
  | coordinates => "coordinate"
  | events => "event file"
  | pedestals => "pedestal"

def title : Topic → String
  | configuration => "Config"
  | calibration => "Calibration"
  | coordinates => "Coordinate system"
  | events => "Event file"
  | pedestals => "Pedestal table"

def absence : Topic → String
  | configuration => "Failed to load configuration as"
  | calibration => "Could not open calibration file because"
  | coordinates => "Failed to load coordinates as"
  | events => "Could not open event file because"
  | pedestals => "Could not open pedestal file because"

end Topic

namespace FileError

def topic : FileError → Topic
  | absent topic _ => topic
  | unusable topic _ => topic
  | malformed topic => topic
  | notMapping => .configuration
  | noFrames _ => .coordinates

def message : FileError → String
  | absent topic path => topic.absence ++ " file " ++ Text.quoted path ++ " does not exist"
  | unusable topic fault => topic.title ++ " failed due to IO error: " ++ fault.text
  | malformed topic => topic.title ++ " failed to parse YAML"
  | notMapping => "Reconstruction settings must be a YAML mapping of keys to values"
  | noFrames cause => cause.message

end FileError

def RunError.message : RunError → String
  | workerCount count =>
    "Processor was given an invalid number of workers: " ++ toString count
  | file cause =>
    "Processor failed due to " ++ cause.topic.label ++ " error: " ++ cause.message

def Folder.load (f : Folder) (topic : Topic) (path : String) : Except FileError String :=
  match f.read path with
  | .error fault => .error (.unusable topic fault)
  | .ok none => .error (.absent topic path)
  | .ok (some text) => .ok text

def Folder.loadAs {α : Type} (f : Folder) (topic : Topic) (path : String)
    (reader : String → Option α) : Except FileError α := do
  match reader (← f.load topic path) with
  | some x => .ok x
  | none => .error (.malformed topic)

def Folder.save (f : Folder) (topic : Topic) (path content : String) :
    Except FileError Folder :=
  match f.write path content with
  | .error fault => .error (.unusable topic fault)
  | .ok g => .ok g

end ShowerTrack
