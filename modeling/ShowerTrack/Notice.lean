import ShowerTrack.Event

/-!
# Notices

What the reconstruction has to say about its input, by severity.
-/

set_option autoImplicit false

namespace ShowerTrack

inductive Severity where
  | debug
  | info
  | warning
  | error
  deriving DecidableEq, Repr

namespace Severity

def label : Severity → String
  | debug => "debug"
  | info => "info"
  | warning => "warn"
  | error => "error"

/-- Whether a notice also goes to the terminal. -/
def isProblem : Severity → Bool
  | debug => false
  | info => false
  | warning => true
  | error => true

end Severity

inductive Notice where
  | unknownDeadBlock (id : Int)
  | unknownCalibratedBlock (id : Int)
  | evenWindow (size used : Nat)
  | deadBlockEnergy (id : Int)
  | unknownBlockEnergy (id : Int)
  | notATracker (event : Nat) (detector : Detector)
  | stripOutside (strip : Int) (plane : Plane) (strips : Nat)
  | stripRepeated (strip : Int) (plane : Plane)
  | caloOverflow (dropped : Nat)
  | unreadPlane (detector : Detector) (plane : Plane)
  | trackerOverflow (detector : Detector) (dropped : Nat)
  | eventOverflow (event : Nat) (overflow : Overflow)
  deriving DecidableEq, Repr

namespace Notice

def severity : Notice → Severity
  | caloOverflow _ => .debug
  | trackerOverflow _ _ => .debug
  | eventOverflow _ _ => .info
  | _ => .warning

def overflowText (o : Overflow) : String :=
  "OverflowCounts \x7b hycal: " ++ toString o.hyCal ++ ", gem1: " ++ toString o.gem1 ++
    ", gem2: " ++ toString o.gem2 ++ " \x7d"

def text : Notice → String
  | unknownDeadBlock id => "Dead module list contains unknown module " ++ toString id
  | unknownCalibratedBlock id =>
    "Cannot set calibration of unknown HyCal module " ++ toString id
  | evenWindow size used =>
    "Square Size " ++ toString size ++ " is not a positive odd number, using " ++ toString used
  | deadBlockEnergy id =>
    "Received energy for dead HyCal module " ++ toString id ++ ", ignoring it"
  | unknownBlockEnergy id => "Received energy for unknown HyCal module " ++ toString id
  | notATracker event detector =>
    "Event " ++ toString event ++ " has strip data for " ++ detector.title ++
      ", which is not a GEM"
  | stripOutside strip plane strips =>
    "Strip " ++ toString strip ++ " is outside of GEM plane " ++ plane.key ++ " (" ++
      toString strips ++ " strips), skipping it"
  | stripRepeated strip plane =>
    "Strip " ++ toString strip ++ " of GEM plane " ++ plane.key ++
      " fired twice, keeping the first hit"
  | caloOverflow dropped =>
    "HyCal cluster capacity reached, dropped " ++ toString dropped ++ " clusters"
  | unreadPlane detector plane =>
    detector.title ++ " plane " ++ plane.key ++ " has no APV connected, no hits reconstructed"
  | trackerOverflow detector dropped =>
    detector.title ++ " hit capacity reached, dropped " ++ toString dropped ++ " hits"
  | eventOverflow event overflow =>
    "Event " ++ toString event ++ " exceeded the hit capacity: " ++ overflowText overflow

end Notice

end ShowerTrack
