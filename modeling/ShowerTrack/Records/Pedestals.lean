import ShowerTrack.Records.Inputs
import ShowerTrack.Yaml.Printer

/-!
# Pedestal files

A pedestal table is written as a list in the order of its strips. When it is read,
the last row of a strip counts.
-/

set_option autoImplicit false

namespace ShowerTrack

open Yaml

structure PedestalRow where
  key : StripKey
  pedestal : Pedestal Float32

namespace PedestalRow

def ofNode (n : Node) : Decode PedestalRow := do
  let r ← Record.ofNode ["detector", "plane", "strip", "mean", "rms"] n
  let key ← StripKey.ofRecord r
  let mean ← r.get "mean" (·.single)
  let rms ← r.get "rms" (·.single)
  return ⟨key, ⟨mean, rms⟩⟩

def readList? (text : String) : Option (List PedestalRow) :=
  Yaml.read? (·.list ofNode) text

open Layout in
def layout (r : PedestalRow) : Layout :=
  record [("detector", word r.key.detector.key), ("plane", word r.key.plane.key),
    ("strip", int r.key.strip), ("mean", single r.pedestal.mean),
    ("rms", single r.pedestal.rms)]

end PedestalRow

namespace PedestalTable

def ofRows (rows : List PedestalRow) : PedestalTable Float32 :=
  rows.foldl (fun t r => t.insert r.key r.pedestal) ∅

def rows (t : PedestalTable Float32) : List PedestalRow := t.toList.map fun (k, p) => ⟨k, p⟩

def read? (text : String) : Option (PedestalTable Float32) :=
  (PedestalRow.readList? text).map ofRows

def text (t : PedestalTable Float32) : String :=
  (Layout.listOf PedestalRow.layout (rows t)).print

end PedestalTable

end ShowerTrack
