import ShowerTrack.Yaml.Printer
import ShowerTrack.Yaml.Record

/-!
# Run configurations

Which files a run takes and writes, for which run number and with how many workers.
-/

set_option autoImplicit false

namespace ShowerTrack

structure Config where
  eventPath : String
  outputPath : String
  settingsPath : Option String
  framePath : Option String
  calibrationPath : Option String
  pedestalPath : Option String
  isPedestalRun : Bool
  run : Int
  workers : Int
  deriving DecidableEq, Repr

namespace Config

def template : Config := ⟨"None", "None", none, none, none, none, false, 0, 1⟩

def hasWorkers (c : Config) : Bool := 1 ≤ c.workers

def fieldNames : List String :=
  ["event_path", "output_path", "recon_config_path", "coord_path", "calib_path",
    "pedestal_path", "pedestal_run", "run_number", "n_threads"]

open Yaml in
def ofNode (n : Node) : Decode Config := do
  let r ← Record.ofNode fieldNames n
  let eventPath ← r.get "event_path" (·.text)
  let outputPath ← r.get "output_path" (·.text)
  let settingsPath ← r.optional "recon_config_path" (·.text)
  let framePath ← r.optional "coord_path" (·.text)
  let calibrationPath ← r.optional "calib_path" (·.text)
  let pedestalPath ← r.optional "pedestal_path" (·.text)
  let isPedestalRun ← r.get "pedestal_run" (·.bool)
  let run ← r.get "run_number" (·.int32)
  let workers ← r.get "n_threads" (·.int32)
  return { eventPath, outputPath, settingsPath, framePath, calibrationPath, pedestalPath,
           isPedestalRun, run, workers }

def read? (text : String) : Option Config := Yaml.read? ofNode text

open Yaml.Layout in
def templateLayout : Yaml.Layout :=
  record [("event_path", word template.eventPath), ("output_path", word template.outputPath),
    ("recon_config_path", null), ("coord_path", null), ("calib_path", null),
    ("pedestal_path", null), ("pedestal_run", bool template.isPedestalRun),
    ("run_number", int template.run), ("n_threads", int template.workers)]

def templateText : String := templateLayout.print

end Config

end ShowerTrack
