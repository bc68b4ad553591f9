import ShowerTrack.Reconstructor

/-!
# Workers

The events of a run are dealt out in turn to a number of workers. Each has its own
reconstructor and reports how far it is; what they make is put together in the order
of the event numbers.
-/

set_option autoImplicit false

namespace ShowerTrack

/-- Deals the first `n` numbers to `workers` hands in turn. Hands hold the last number
first. -/
def deal (workers : Nat) : Nat → List (List Nat)
  | 0 => List.replicate workers []
  | n + 1 => (deal workers n).modify (n % workers) (n :: ·)

/-- The events of each worker. There is at least one worker, and none is idle. -/
def subsets (events workers : Nat) : List (List Nat) :=
  ((deal (max workers 1) events).filter (!·.isEmpty)).map (·.reverse)

def pick {β : Type} (xs : Array β) (indices : List Nat) : List β :=
  indices.filterMap (xs[·]?)

inductive Phase where
  | reconstructing
  | pedestals
  | failed
  deriving DecidableEq, Repr

def Phase.label : Phase → String
  | reconstructing => "Reconstructing"
  | pedestals => "Pedestals"
  | failed => "Failed"

/-- A message of a worker on its progress, a fraction of its events. -/
structure Status (α : Type) where
  worker : Nat
  run : Int
  done : Nat
  progress : α
  phase : Phase

namespace Status

variable (α : Type) [Scalar α]

/-- How many events pass between two messages: a hundredth of all. -/
def interval (total : Nat) : Nat :=
  max (Scalar.truncate (Scalar.ofNat total * (0.01 : α))) 1

/-- The counts reported while `left` more events are done; `waiting` were done since
the last report. -/
def countsFrom (interval : Nat) : Nat → Nat → Nat → List Nat
  | _, _, 0 => []
  | done, waiting, left + 1 =>
    if interval ≤ waiting + 1 then (done + 1) :: countsFrom interval (done + 1) 0 left
    else countsFrom interval (done + 1) (waiting + 1) left

def counts (total : Nat) : List Nat :=
  0 :: countsFrom (interval α total) 0 0 total ++ [total]

variable {α}

def fractionDone (total done : Nat) : α :=
  if total = 0 then 1 else Scalar.ofNat done / Scalar.ofNat total

def report (worker : Nat) (run : Int) (phase : Phase) (total : Nat) : List (Status α) :=
  (counts α total).map fun done => ⟨worker, run, done, fractionDone total done, phase⟩

def reports (run : Int) (phase : Phase) (shares : List (List Nat)) : List (Status α) :=
  (shares.zipIdx.map fun (share, worker) => report worker run phase share.length).flatten

end Status

namespace Reconstructor

variable {α : Type} [Elementary α]

def reconstructAll (r : Reconstructor α) : List (RawEvent α) → List (Event α × List Notice)
  | [] => []
  | e :: es =>
    let (next, event) := r.reconstruct e
    (event, r.notices e) :: next.reconstructAll es

def workAll (r : Reconstructor α) (events : Array (RawEvent α)) (workers : Nat) :
    List (Event α × List Notice) :=
  (subsets events.size workers).flatMap fun share => r.reconstructAll (pick events share)

def byNumber (es : List (Event α)) : List (Event α) :=
  es.mergeSort fun a b => a.number ≤ b.number

def physicsRun (r : Reconstructor α) (events : Array (RawEvent α)) (workers : Nat) :
    List (Event α) × List Notice :=
  let work := r.workAll events workers
  (byNumber (work.map (·.1)), work.flatMap (·.2))

def pedestalRun {β : Type} [Scalar β] [Widening α β] (r : Reconstructor α)
    (events : Array (RawEvent α)) (workers : Nat) : PedestalTable α :=
  (Levels.mergeAll ((subsets events.size workers).map fun share =>
    (pick events share).foldl (r.addLevels (β := β)) ∅)).finish

end Reconstructor

end ShowerTrack
