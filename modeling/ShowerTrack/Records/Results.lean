import ShowerTrack.Records.Inputs
import ShowerTrack.Yaml.Printer

/-!
# Result files

The reconstructed events of a run, with the time at which they were written.
-/

set_option autoImplicit false

namespace ShowerTrack

open Yaml

section Printing

open Layout

def CaloHit.layout (h : CaloHit Float32) : Layout :=
  record [("cid", int h.block), ("flag", natural h.flags.toNat), ("x", single h.x),
    ("y", single h.y), ("z", single h.z), ("energy", single h.energy),
    ("lin_corr", single h.linearity), ("leakage", single h.leakage),
    ("nblocks", natural h.blocks), ("npos", natural h.located)]

def TrackerHit.layout (h : TrackerHit Float32) : Layout :=
  record [("det", word h.detector.key), ("x", single h.x), ("y", single h.y),
    ("z", single h.z), ("x_charge", single h.xCharge), ("y_charge", single h.yCharge),
    ("x_peak", single h.xPeak), ("y_peak", single h.yPeak), ("x_size", natural h.xSize),
    ("y_size", natural h.ySize)]

def Match.layout (m : Match) : Layout :=
  record [("hycal", natural m.hyCal), ("gem1", optional natural m.gem1),
    ("gem2", optional natural m.gem2),
    ("gem1_candidates", listOf natural m.gem1Candidates),
    ("gem2_candidates", listOf natural m.gem2Candidates),
    ("best", optional (fun (d, i) => list [word d.key, natural i]) m.best),
    ("flag", natural m.flags.toNat)]

def Overflow.layout (o : Overflow) : Layout :=
  record [("hycal", natural o.hyCal), ("gem1", natural o.gem1), ("gem2", natural o.gem2)]

def Event.layout (e : Event Float32) : Layout :=
  record [("event_number", natural e.number),
    ("hycal_hits", listOf CaloHit.layout e.caloHits),
    ("gem1_hits", listOf TrackerHit.layout e.gem1Hits),
    ("gem2_hits", listOf TrackerHit.layout e.gem2Hits),
    ("matches", listOf Match.layout e.matched), ("overflow", e.overflow.layout)]

end Printing

def CaloHit.ofNode (n : Node) : Decode (CaloHit Float32) := do
  let r ← Record.ofNode ["cid", "flag", "x", "y", "z", "energy", "lin_corr", "leakage",
    "nblocks", "npos"] n
  return {
    block := ← r.get "cid" (·.int32)
    flags := .ofNat (← r.get "flag" (·.word32))
    x := ← r.get "x" (·.single)
    y := ← r.get "y" (·.single)
    z := ← r.get "z" (·.single)
    energy := ← r.get "energy" (·.single)
    linearity := ← r.get "lin_corr" (·.single)
    leakage := ← r.get "leakage" (·.single)
    blocks := ← r.get "nblocks" (·.word64)
    located := ← r.get "npos" (·.word64) }

def TrackerHit.ofNode (n : Node) : Decode (TrackerHit Float32) := do
  let r ← Record.ofNode ["det", "x", "y", "z", "x_charge", "y_charge", "x_peak", "y_peak",
    "x_size", "y_size"] n
  return {
    detector := ← r.get "det" Detector.ofNode
    x := ← r.get "x" (·.single)
    y := ← r.get "y" (·.single)
    z := ← r.get "z" (·.single)
    xCharge := ← r.get "x_charge" (·.single)
    yCharge := ← r.get "y_charge" (·.single)
    xPeak := ← r.get "x_peak" (·.single)
    yPeak := ← r.get "y_peak" (·.single)
    xSize := ← r.get "x_size" (·.word64)
    ySize := ← r.get "y_size" (·.word64) }

def Match.ofNode (n : Node) : Decode Match := do
  let r ← Record.ofNode ["hycal", "gem1", "gem2", "gem1_candidates", "gem2_candidates",
    "best", "flag"] n
  return {
    hyCal := ← r.get "hycal" (·.word64)
    gem1 := ← r.optional "gem1" (·.word64)
    gem2 := ← r.optional "gem2" (·.word64)
    gem1Candidates := ← r.get "gem1_candidates" (·.list (·.word64))
    gem2Candidates := ← r.get "gem2_candidates" (·.list (·.word64))
    best := ← r.optional "best" (·.pair Detector.ofNode (·.word64))
    flags := .ofNat (← r.get "flag" (·.word32)) }

def Overflow.ofNode (n : Node) : Decode Overflow := do
  let r ← Record.ofNode ["hycal", "gem1", "gem2"] n
  return ⟨← r.get "hycal" (·.word64), ← r.get "gem1" (·.word64),
    ← r.get "gem2" (·.word64)⟩

def Event.ofNode (n : Node) : Decode (Event Float32) := do
  let r ← Record.ofNode ["event_number", "hycal_hits", "gem1_hits", "gem2_hits", "matches",
    "overflow"] n
  return {
    number := ← r.get "event_number" (·.word64)
    caloHits := ← r.get "hycal_hits" (·.list CaloHit.ofNode)
    gem1Hits := ← r.get "gem1_hits" (·.list TrackerHit.ofNode)
    gem2Hits := ← r.get "gem2_hits" (·.list TrackerHit.ofNode)
    matched := ← r.get "matches" (·.list Match.ofNode)
    overflow := ← r.get "overflow" Overflow.ofNode }

structure Results where
  created : String
  run : Int
  events : List (Event Float32)

namespace Results

def ofNode (n : Node) : Decode Results := do
  let r ← Record.ofNode ["created", "run_number", "events"] n
  return {
    created := ← r.get "created" (·.text)
    run := ← r.get "run_number" (·.int32)
    events := ← r.get "events" (·.list Event.ofNode) }

def read? (text : String) : Option Results := Yaml.read? ofNode text

open Layout in
def layout (r : Results) : Layout :=
  record [("created", word r.created), ("run_number", int r.run),
    ("events", listOf Event.layout r.events)]

def text (r : Results) : String := r.layout.print

end Results

end ShowerTrack
