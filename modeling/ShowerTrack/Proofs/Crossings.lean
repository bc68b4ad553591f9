import Mathlib.Algebra.Order.Group.Nat
import ShowerTrack.Tracker.Chamber

/-!
# Crossings

The hits of a chamber are the first pairs of an x cluster and a y cluster, row after row. Room runs
out just when there are more pairs than room, and then the pairs that found none are counted.
-/

set_option autoImplicit false

namespace ShowerTrack

variable {α : Type} [Scalar α] (detector : Detector)

def pairs (xs ys : List (StripCluster α)) : List (TrackerHit α) :=
  xs.flatMap fun x => ys.map (.cross detector x)

theorem pairs_cons (x : StripCluster α) (xs ys : List (StripCluster α)) :
    pairs detector (x :: xs) ys = ys.map (.cross detector x) ++ pairs detector xs ys :=
  List.flatMap_cons

theorem length_pairs (xs ys : List (StripCluster α)) :
    (pairs detector xs ys).length = xs.length * ys.length := by
  induction xs with
  | nil => simp [pairs]
  | cons x xs ih => rw [pairs_cons, List.length_append, List.length_map, ih, List.length_cons,
      Nat.succ_mul, Nat.add_comm]

/-- A pair stands where the row and the column of its clusters say. -/
theorem getElem?_pairs {xs ys : List (StripCluster α)} {i : Nat}
    (hi : i < xs.length * ys.length) :
    ∃ x ∈ xs[i / ys.length]?, ∃ y ∈ ys[i % ys.length]?,
      (pairs detector xs ys)[i]? = some (.cross detector x y) := by
  induction xs generalizing i with
  | nil => simp at hi
  | cons x xs ih =>
    rw [List.length_cons, Nat.succ_mul] at hi
    rw [pairs_cons]
    by_cases hrow : i < ys.length
    · rw [Nat.div_eq_of_lt hrow, Nat.mod_eq_of_lt hrow, List.getElem?_append_left (by simpa)]
      exact ⟨x, rfl, ys[i], List.getElem?_eq_getElem hrow, by simp [hrow]⟩
    · have hpos : 0 < ys.length := by
        by_contra hnone
        simp [show ys.length = 0 by omega] at hi
      obtain ⟨j, rfl⟩ := Nat.exists_eq_add_of_le (Nat.not_lt.mp hrow)
      rw [Nat.add_div_left j hpos, Nat.add_mod_left, List.getElem?_append_right (by simp),
        List.length_map, Nat.add_sub_cancel_left]
      exact ih (by omega)

section Rows

variable {hits : List (TrackerHit α)} (h : hits.length ≤ maxTrackerHits)

include h

/-- A row takes the room that is left, and says whether it needed more. -/
theorem crossRow_eq (x : StripCluster α) (ys : List (StripCluster α)) :
    crossRow detector x ys hits =
      (hits ++ (ys.map (.cross detector x)).take (maxTrackerHits - hits.length),
        decide (maxTrackerHits < hits.length + ys.length)) := by
  induction ys generalizing hits with
  | nil => simp [crossRow, h]
  | cons y ys ih =>
    rw [crossRow, List.length_cons]
    by_cases hfull : maxTrackerHits ≤ hits.length
    · have hroom : maxTrackerHits - hits.length = 0 := by omega
      rw [if_pos hfull, hroom, List.take_zero, List.append_nil, decide_eq_true (by omega)]
    · have hlength : (hits ++ [TrackerHit.cross detector x y]).length = hits.length + 1 := by simp
      have hroom : maxTrackerHits - hits.length = maxTrackerHits - (hits.length + 1) + 1 := by omega
      rw [if_neg hfull, ih (by omega), hlength, hroom, List.map_cons, List.take_succ_cons,
        List.append_assoc, List.singleton_append, Nat.add_assoc, Nat.add_comm 1]

/-- Rows are crossed until one of them needs more room than is left. -/
theorem crossRows_eq (ys xs : List (StripCluster α)) :
    crossRows detector ys xs hits =
      (hits ++ (pairs detector xs ys).take (maxTrackerHits - hits.length),
        decide (maxTrackerHits < hits.length + xs.length * ys.length)) := by
  -- on the x clusters, for any hits: every row that fits leaves less room for the next ones
  induction xs generalizing hits with
  | nil => simp [crossRows, pairs, h]
  | cons x xs ih =>
    have hcount : (x :: xs).length * ys.length = ys.length + xs.length * ys.length := by
      rw [List.length_cons, Nat.succ_mul, Nat.add_comm]
    rw [crossRows, crossRow_eq detector h, pairs_cons, hcount]
    by_cases hfull : maxTrackerHits < hits.length + ys.length
    · rw [decide_eq_true hfull, decide_eq_true (by omega),
        List.take_append_of_le_length (by rw [List.length_map]; omega)]
    · have hrow : (ys.map (TrackerHit.cross detector x)).length ≤ maxTrackerHits - hits.length := by
        rw [List.length_map]
        omega
      have hlength : (hits ++ ys.map (TrackerHit.cross detector x)).length =
          hits.length + ys.length := by simp
      rw [decide_eq_false hfull, List.take_of_length_le hrow]
      simp only
      rw [ih (by omega), hlength, List.take_append, List.take_of_length_le hrow, List.length_map,
        List.append_assoc, Nat.add_assoc, Nat.sub_sub]

end Rows

theorem crossings_eq (xs ys : List (StripCluster α)) :
    crossings detector xs ys =
      ((pairs detector xs ys).take maxTrackerHits, xs.length * ys.length - maxTrackerHits) := by
  rw [crossings, crossRows_eq detector (Nat.zero_le _)]
  by_cases hfull : maxTrackerHits < xs.length * ys.length
  · simp [hfull]
  · simp [hfull, show xs.length * ys.length - maxTrackerHits = 0 by omega]

/-- Hits and overflow are together all pairs. The hit at a position is made of the x cluster of its
row and the y cluster of its column, and nothing is counted before room has run out. -/
theorem crossings_are_first_pairs (xs ys : List (StripCluster α)) :
    let hits := (crossings detector xs ys).1
    let overflow := (crossings detector xs ys).2
    hits.length = min (xs.length * ys.length) maxTrackerHits ∧
      hits.length + overflow = xs.length * ys.length ∧
      (∀ i < hits.length, ∃ x ∈ xs[i / ys.length]?, ∃ y ∈ ys[i % ys.length]?, hits[i]? = some
        { detector, x := x.position, y := y.position, z := 0,
          xCharge := x.total, yCharge := y.total, xPeak := x.peak, yPeak := y.peak,
          xSize := x.hits.length, ySize := y.hits.length }) ∧
      ((crossRows detector ys xs []).2 = true ↔ maxTrackerHits < xs.length * ys.length) := by
  intro hits overflow
  have hhits : hits = (pairs detector xs ys).take maxTrackerHits := by
    simp only [hits, crossings_eq]
  have hoverflow : overflow = xs.length * ys.length - maxTrackerHits := by
    simp only [overflow, crossings_eq]
  have hlength : hits.length = min (xs.length * ys.length) maxTrackerHits := by
    rw [hhits, List.length_take, length_pairs, Nat.min_comm]
  refine ⟨hlength, by omega, ?_, ?_⟩
  · intro i hi
    rw [hlength, Nat.lt_min] at hi
    obtain ⟨x, hx, y, hy, hpair⟩ := getElem?_pairs detector hi.1
    rw [hhits, List.getElem?_take_of_lt hi.2]
    exact ⟨x, hx, y, hy, hpair⟩
  · rw [crossRows_eq detector (Nat.zero_le _)]
    simp

/-- Twenty-six rows of ten: the last row finds no room. -/
theorem crossings_of_full_rows :
    let xs : List (StripCluster Float32) := List.replicate 26 ⟨1.5, 30, 50, false, []⟩
    let ys : List (StripCluster Float32) := List.replicate 10 ⟨-2, 20, 20, false, []⟩
    let hits := (crossings .gem1 xs ys).1
    249 < hits.length ∧ hits.length + 10 = xs.length * ys.length ∧
      (crossings .gem1 xs ys).2 = 10 ∧ ∃ x ∈ xs[24]?, ∃ y ∈ ys[9]?, hits[249]? = some
        { detector := .gem1, x := x.position, y := y.position, z := 0,
          xCharge := x.total, yCharge := y.total, xPeak := x.peak, yPeak := y.peak,
          xSize := x.hits.length, ySize := y.hits.length } := by
  intro xs ys hits
  obtain ⟨hlength, hsum, hpairs, -⟩ := crossings_are_first_pairs .gem1 xs ys
  have hrow : ys.length = 10 := List.length_replicate
  have hcount : xs.length * ys.length = 260 := by simp [xs, ys]
  have hroom : hits.length = 250 := by
    rw [hlength, hcount]
    rfl
  rw [hroom, hcount] at hsum
  have hpair := hpairs 249 (by rw [hroom]; decide)
  rw [hrow] at hpair
  exact ⟨by omega, by omega, by omega, hpair⟩

end ShowerTrack
