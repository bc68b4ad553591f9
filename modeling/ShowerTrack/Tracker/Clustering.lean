import ShowerTrack.Settings
import ShowerTrack.Tracker.Strip

/-!
# Strip clustering

Hits are sorted by strip and cut at the gaps. A cluster is split at a valley, where
the charge drops and then rises by more than a threshold; both halves keep the
strip of the valley with half of its charge. Clusters of a wrong size or without a
high enough peak are dropped.
-/

set_option autoImplicit false

namespace ShowerTrack

variable {α : Type} [Scalar α]

/-- Runs of strips without a gap larger than one. -/
def groupStrips (hits : List (StripHit α)) : List (StripCluster α) :=
  ((hits.mergeSort fun a b => a.strip ≤ b.strip).splitBy fun a b => b.strip - a.strip ≤ 1).map
    .ofHits

/-- The valley of the charges from position `i` on. Once they descend, `low` is the
position and the charge of the lowest strip since. -/
def valleyFrom (difference : α) (low : Option (Nat × α)) (i : Nat) : List α → Option Nat
  | charge :: next :: rest =>
    match low with
    | none =>
      let low := if difference < charge - next then some (i + 1, next) else none
      valleyFrom difference low (i + 1) (next :: rest)
    | some low =>
      let low := if charge < low.2 then (i, charge) else low
      if difference < next - charge then some low.1
      else valleyFrom difference (some low) (i + 1) (next :: rest)
  | _ => none

def valley? (difference : α) (hits : List (StripHit α)) : Option Nat :=
  valleyFrom difference none 0 (hits.map (·.charge))

theorem valleyFrom_bounds (difference : α) (low : Option (Nat × α)) (i : Nat) (cs : List α)
    (v : Nat) (hlow : ∀ l ∈ low, 1 ≤ l.1 ∧ l.1 ≤ i)
    (h : valleyFrom difference low i cs = some v) : 1 ≤ v ∧ v + 1 < i + cs.length := by
  induction cs generalizing low i with
  | nil => simp [valleyFrom] at h
  | cons charge cs ih =>
    cases cs with
    | nil => simp [valleyFrom] at h
    | cons next rest =>
      cases low with
      | none =>
        have := ih _ (i + 1) (by intro l hl; split at hl <;> simp at hl; subst hl; simp) h
        simp only [List.length_cons] at this ⊢
        omega
      | some l =>
        have hl := hlow l (by simp)
        rw [valleyFrom] at h
        have hb : 1 ≤ (if charge < l.2 then (i, charge) else l).1 ∧
            (if charge < l.2 then (i, charge) else l).1 ≤ i := by
          split <;> omega
        split at h
        · simp only [Option.some.injEq] at h
          simp only [List.length_cons]
          omega
        · have := ih _ (i + 1) (by intro m hm; simp at hm; subst hm; omega) h
          simp only [List.length_cons] at this ⊢
          omega

def halve (h : StripHit α) : StripHit α := { h with charge := h.charge / 2 }

/-- The two parts of a cluster around strip number `v`, which both keep. -/
def leftPart (v : Nat) (hits : List (StripHit α)) : List (StripHit α) :=
  hits.take v ++ ((hits.drop v).head?.map halve).toList

def rightPart (v : Nat) (hits : List (StripHit α)) : List (StripHit α) :=
  ((hits.drop v).head?.map halve).toList ++ hits.drop (v + 1)

theorem valley_bounds (difference : α) (hits : List (StripHit α)) (v : Nat)
    (h : valley? difference hits = some v) : 1 ≤ v ∧ v + 1 < hits.length := by
  simpa using valleyFrom_bounds difference none 0 _ v (by simp) h

theorem length_leftPart (v : Nat) (hits : List (StripHit α)) (h : v < hits.length) :
    (leftPart v hits).length = v + 1 := by
  simp [leftPart, h]
  omega

theorem length_rightPart (v : Nat) (hits : List (StripHit α)) (h : v < hits.length) :
    (rightPart v hits).length = hits.length - v := by
  simp [rightPart, h]
  omega

def splitRun (difference : α) (hits : List (StripHit α)) : List (List (StripHit α)) :=
  match _h : valley? difference hits with
  | none => [hits]
  | some v => splitRun difference (leftPart v hits) ++ splitRun difference (rightPart v hits)
termination_by hits.length
decreasing_by
  · have := valley_bounds difference hits v _h
    rw [length_leftPart v hits (by omega)]
    omega
  · have := valley_bounds difference hits v _h
    rw [length_rightPart v hits (by omega)]
    omega

/-- A cluster that is not split stays as it is, its first part keeps what was
measured on it. -/
def splitCluster (difference : α) (c : StripCluster α) : List (StripCluster α) :=
  match splitRun difference c.hits with
  | [] => []
  | first :: others => { c with hits := first } :: others.map .ofHits

def splitClusters (s : TrackerSettings α) (cs : List (StripCluster α)) :
    List (StripCluster α) :=
  cs.flatMap (splitCluster s.splitDifference)

def hasAllowedSize (s : TrackerSettings α) (c : StripCluster α) : Bool :=
  s.minClusterHits ≤ c.size && c.size ≤ s.maxClusterHits

def flagCrossTalk (s : TrackerSettings α) (cs : List (StripCluster α)) :
    List (StripCluster α) :=
  if s.crossTalkThreshold ≤ 0 then cs
  else cs.map fun c => if c.peak < s.crossTalkThreshold then c.flagCrossTalk else c

def formClusters (s : TrackerSettings α) (hits : List (StripHit α)) : List (StripCluster α) :=
  let sized := (splitClusters s (groupStrips hits)).filter (hasAllowedSize s)
  (flagCrossTalk s (sized.map (·.measure))).filter (!·.crossTalk)

end ShowerTrack
