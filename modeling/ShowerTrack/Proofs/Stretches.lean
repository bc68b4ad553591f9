import Mathlib.Data.List.Basic

/-!
# Stretches of a list

Cuts divide a list into stretches that go from one cut to the next, both included. A stretch shares
the item at a cut with the next one: read once, the stretches are the list again, and altogether
they hold every item once and the items at the cuts twice.
-/

set_option autoImplicit false

namespace ShowerTrack

variable {β : Type}

/-- The stretches of a list from one cut to the next, which both belong to it. -/
def stretches (xs : List β) : Nat → List Nat → List (List β)
  | start, [] => [xs.drop start]
  | start, cut :: cuts => (xs.take (cut + 1)).drop start :: stretches xs cut cuts

/-- Reads lists that share an item each, the shared items once. -/
def readOnce : List (List β) → List β
  | [] => []
  | part :: parts => part ++ parts.flatMap List.tail

structure Inside (cuts : List Nat) (length : Nat) : Prop where
  sorted : cuts.Pairwise (· < ·)
  inner : ∀ v ∈ cuts, 0 < v ∧ v + 1 < length

/-- A list parts at any of its places. -/
theorem exists_middle {xs : List β} {v : Nat} (hv : v < xs.length) :
    ∃ front x back, xs = front ++ x :: back ∧ front.length = v := by
  refine ⟨xs.take v, xs[v], xs.drop (v + 1), ?_, List.length_take_of_le (Nat.le_of_lt hv)⟩
  rw [← List.drop_eq_getElem_cons hv, List.take_append_drop]

theorem length_stretches (xs : List β) (start : Nat) (cuts : List Nat) :
    (stretches xs start cuts).length = cuts.length + 1 := by
  induction cuts generalizing start with
  | nil => rfl
  | cons cut cuts ih => rw [stretches, List.length_cons, ih, List.length_cons]

theorem stretches_append (xs : List β) (start v : Nat) {cuts : List Nat} (rest : List Nat)
    (h : ∀ c ∈ cuts, c < v) : stretches xs start (cuts ++ v :: rest) =
      stretches (xs.take (v + 1)) start cuts ++ stretches xs v rest := by
  induction cuts generalizing start with
  | nil => rfl
  | cons cut cuts ih =>
    obtain ⟨hcut, hcuts⟩ := List.forall_mem_cons.mp h
    have htake : (xs.take (v + 1)).take (cut + 1) = xs.take (cut + 1) := by
      rw [List.take_take, Nat.min_eq_left (by omega)]
    rw [List.cons_append, stretches, stretches, ih cut hcuts, htake, List.cons_append]

theorem stretches_add (xs : List β) (start v : Nat) (cuts : List Nat) :
    stretches xs (v + start) (cuts.map (v + ·)) = stretches (xs.drop v) start cuts := by
  induction cuts generalizing start with
  | nil => rw [List.map_nil, stretches, stretches, List.drop_drop]
  | cons cut cuts ih =>
    rw [List.map_cons, stretches, stretches, ih, ← List.drop_drop, List.drop_take]
    congr 3
    omega

/-- The item at a cut ends one stretch and starts the next. -/
theorem stretches_shared (xs : List β) {start : Nat} {cuts : List Nat}
    (sorted : (start :: cuts).Pairwise (· < ·)) (bounded : ∀ v ∈ cuts, v < xs.length) {j v : Nat}
    (hv : cuts[j]? = some v) : ∃ p q, (stretches xs start cuts)[j]? = some p ∧
      (stretches xs start cuts)[j + 1]? = some q ∧ p.getLast? = xs[v]? ∧ q.head? = xs[v]? := by
  induction cuts generalizing start j with
  | nil => simp at hv
  | cons cut cuts ih =>
    obtain ⟨hstart, hcuts⟩ := List.pairwise_cons.mp sorted
    obtain ⟨hcut, hbounded⟩ := List.forall_mem_cons.mp bounded
    cases j with
    | zero =>
      obtain rfl : cut = v := by simpa using hv
      have hlast : ((xs.take (cut + 1)).drop start).getLast? = xs[cut]? := by
        have := hstart cut List.mem_cons_self
        have hlength : (xs.take (cut + 1)).length = cut + 1 := by
          rw [List.length_take]
          omega
        rw [List.getLast?_drop, if_neg (by omega), List.getLast?_eq_getElem?, hlength,
          List.getElem?_take_of_lt (by omega), Nat.add_sub_cancel]
      cases cuts with
      | nil => exact ⟨_, _, rfl, rfl, hlast, List.head?_drop⟩
      | cons next cuts =>
        refine ⟨_, _, rfl, rfl, hlast, ?_⟩
        have := (List.pairwise_cons.mp hcuts).1 next List.mem_cons_self
        rw [List.head?_drop, List.getElem?_take_of_lt (by omega)]
    | succ j => exact ih hcuts hbounded hv

theorem length_of_mem_stretches {xs : List β} {start : Nat} {cuts : List Nat}
    (sorted : (start :: cuts).Pairwise (· < ·)) (hstart : start + 1 < xs.length)
    (bounded : ∀ v ∈ cuts, v + 1 < xs.length) : ∀ p ∈ stretches xs start cuts, 2 ≤ p.length := by
  induction cuts generalizing start with
  | nil =>
    rw [stretches, List.forall_mem_singleton, List.length_drop]
    omega
  | cons cut cuts ih =>
    obtain ⟨hbefore, hcuts⟩ := List.pairwise_cons.mp sorted
    obtain ⟨hcut, hbounded⟩ := List.forall_mem_cons.mp bounded
    have := hbefore cut List.mem_cons_self
    rw [stretches, List.forall_mem_cons]
    refine ⟨?_, ih hcuts hcut hbounded⟩
    rw [List.length_drop, List.length_take]
    omega

theorem drop_take_append (xs : List β) {m n : Nat} (h : m ≤ n) :
    (xs.take n).drop m ++ xs.drop n = xs.drop m := by
  have hdrop : xs.drop n = (xs.drop m).drop (n - m) := by
    rw [List.drop_drop, Nat.add_sub_cancel' h]
  rw [List.drop_take, hdrop, List.take_append_drop]

theorem flatMap_tail_stretches {xs : List β} {start : Nat} {cuts : List Nat}
    (sorted : (start :: cuts).Pairwise (· < ·)) :
    (stretches xs start cuts).flatMap List.tail = xs.drop (start + 1) := by
  induction cuts generalizing start with
  | nil => simp [stretches]
  | cons cut cuts ih =>
    obtain ⟨hbefore, hcuts⟩ := List.pairwise_cons.mp sorted
    have := hbefore cut List.mem_cons_self
    rw [stretches, List.flatMap_cons, ih hcuts, List.tail_drop, drop_take_append xs (by omega)]

/-- Stretches give the list back when the items at the cuts are read once. -/
theorem readOnce_stretches {xs : List β} {start : Nat} {cuts : List Nat}
    (sorted : (start :: cuts).Pairwise (· < ·)) :
    readOnce (stretches xs start cuts) = xs.drop start := by
  cases cuts with
  | nil => simp [stretches, readOnce]
  | cons cut cuts =>
    obtain ⟨hbefore, hcuts⟩ := List.pairwise_cons.mp sorted
    have := hbefore cut List.mem_cons_self
    rw [stretches, readOnce, flatMap_tail_stretches hcuts, drop_take_append xs (by omega)]

/-- The stretches hold every item once, and the items at the cuts twice. -/
theorem flatten_stretches {xs : List β} {start : Nat} {cuts : List Nat}
    (sorted : (start :: cuts).Pairwise (· < ·)) (bounded : ∀ v ∈ cuts, v < xs.length) :
    (stretches xs start cuts).flatten =
      (xs.zipIdx.drop start).flatMap fun x => if x.2 ∈ cuts then [x.1, x.1] else [x.1] := by
  induction cuts generalizing start with
  | nil =>
    have hmap : (xs.zipIdx.drop start).map Prod.fst = xs.drop start := by
      rw [List.map_drop, List.zipIdx_map_fst]
    simp only [stretches, List.flatten_singleton, List.not_mem_nil, if_false, ← hmap]
    exact List.map_eq_flatMap
  | cons cut cuts ih =>
    obtain ⟨hbefore, hcuts⟩ := List.pairwise_cons.mp sorted
    obtain ⟨hcut, hbounded⟩ := List.forall_mem_cons.mp bounded
    have hstart := hbefore cut List.mem_cons_self
    have hlater := (List.pairwise_cons.mp hcuts).1
    rw [stretches, List.flatten_cons, ih hcuts hbounded]
    obtain ⟨front, a, back, rfl, rfl⟩ : ∃ front a back, xs = front ++ a :: back ∧
        front.length = cut := ⟨xs.take cut, xs[cut], xs.drop (cut + 1), by simp, by simp; omega⟩
    have hnumbers : (front ++ a :: back).zipIdx =
        front.zipIdx ++ (a, front.length) :: back.zipIdx (front.length + 1) := by
      rw [List.zipIdx_append, List.zipIdx_cons, Nat.zero_add]
    have hfront : ((front.zipIdx.drop start).flatMap fun x =>
        if x.2 ∈ front.length :: cuts then [x.1, x.1] else [x.1]) = front.drop start := by
      conv_rhs => rw [← List.zipIdx_map_fst 0 front, ← List.map_drop, List.map_eq_flatMap]
      apply List.flatMap_congr
      intro x hx
      have hx := (List.mem_zipIdx' (List.mem_of_mem_drop hx)).1
      have hout : x.2 ∉ front.length :: cuts := by
        rw [List.mem_cons, not_or]
        exact ⟨by omega, fun hmem => by have := hlater _ hmem; omega⟩
      rw [if_neg hout]
    have hback : ((back.zipIdx (front.length + 1)).flatMap fun x =>
        if x.2 ∈ front.length :: cuts then [x.1, x.1] else [x.1]) =
          (back.zipIdx (front.length + 1)).flatMap fun x =>
            if x.2 ∈ cuts then [x.1, x.1] else [x.1] := by
      apply List.flatMap_congr
      intro x hx
      have hx := List.le_snd_of_mem_zipIdx hx
      have hne : x.2 ≠ front.length := by omega
      simp [hne]
    have hcut : front.length ∉ cuts := fun hmem => Nat.lt_irrefl _ (hlater _ hmem)
    have hpiece : (front ++ a :: back).take (front.length + 1) = front ++ [a] := by
      rw [List.append_cons, List.take_left' (by simp)]
    have hlength : front.zipIdx.length = front.length := List.length_zipIdx
    rw [hnumbers, hpiece, List.drop_left' hlength, List.drop_append_of_le_length (by omega),
      List.drop_append_of_le_length (by omega), List.flatMap_append, List.flatMap_cons,
      List.flatMap_cons, hfront, hback]
    simp [hcut]

end ShowerTrack
