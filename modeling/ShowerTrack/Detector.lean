/-!
# Detectors

The calorimeter and the two trackers in front of it. A tracker is read out by
two planes of strips, and one strip of the whole system is named by its
detector, its plane and its number.
-/

set_option autoImplicit false

namespace ShowerTrack

inductive Detector where
  | hyCal
  | gem1
  | gem2
  deriving DecidableEq, Repr

namespace Detector

def all : List Detector := [hyCal, gem1, gem2]

def index : Detector → Nat
  | hyCal => 0
  | gem1 => 1
  | gem2 => 2

/-- The name in messages. -/
def title : Detector → String
  | hyCal => "HyCal"
  | gem1 => "GEM1"
  | gem2 => "GEM2"

/-- The name in files. -/
def key : Detector → String
  | hyCal => "HyCal"
  | gem1 => "Gem1"
  | gem2 => "Gem2"

def ofKey? (s : String) : Option Detector := all.find? (·.key == s)

theorem ofKey?_key (d : Detector) : ofKey? d.key = some d := by
  cases d <;> decide

end Detector

inductive Plane where
  | x
  | y
  deriving DecidableEq, Repr

namespace Plane

def all : List Plane := [x, y]

def index : Plane → Nat
  | x => 0
  | y => 1

def key : Plane → String
  | x => "X"
  | y => "Y"

def ofKey? (s : String) : Option Plane := all.find? (·.key == s)

theorem ofKey?_key (p : Plane) : ofKey? p.key = some p := by
  cases p <;> decide

end Plane

structure StripKey where
  detector : Detector
  plane : Plane
  strip : Int
  deriving DecidableEq, Repr

/-- Keys are ordered by detector, then plane, then strip. -/
instance : Ord StripKey where
  compare := compareLex (compareOn (·.detector.index))
    (compareLex (compareOn (·.plane.index)) (compareOn (·.strip)))

end ShowerTrack
