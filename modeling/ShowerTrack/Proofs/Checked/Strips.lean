import Mathlib.Algebra.Order.BigOperators.Group.List
import Mathlib.Algebra.Order.Group.Nat
import Mathlib.Data.List.SplitBy
import ShowerTrack.Proofs.Checked.Reading
import ShowerTrack.Proofs.Crossings

/-!
# Checked strip clustering

The strips of a plane are small, so that their differences fit into half a word. A valley lies
between the ends of its cluster, and the two parts around it are shorter than the cluster; a loop
that splits in place therefore ends. Overflow is counted only where more crossings exist than fit.
-/

set_option autoImplicit false

namespace ShowerTrack.Checked

variable {α : Type}

section Groups

/-- Puts a hit at the end of the last run if its strip is next to the last one there. -/
def extend (runs : List (List (StripHit α))) (h : StripHit α) :
    Option (List (List (StripHit α))) :=
  match runs.getLast? with
  | none => some (runs ++ [[h]])
  | some run =>
    match run.getLast? with
    | none => some (runs ++ [[h]])
    | some last => do
      let gap ← difference h.strip last.strip
      some (if gap ≤ 1 then runs.dropLast ++ [run ++ [h]] else runs ++ [[h]])

def groupStrips [Scalar α] (hits : List (StripHit α)) : Option (List (StripCluster α)) := do
  let runs ← (hits.mergeSort fun a b => a.strip ≤ b.strip).foldlM extend []
  some (runs.map .ofHits)

/-- A strip whose differences to others of its kind fit into half a word. -/
def Small (strip : Int) : Prop := 0 ≤ strip ∧ strip ≤ Int32.maxValue.toInt

theorem extend_last (runs : List (List (StripHit α))) (run : List (StripHit α))
    {last h : StripHit α} (hlast : Small last.strip) (hh : Small h.strip) :
    extend (runs ++ [run ++ [last]]) h =
      some (if h.strip - last.strip ≤ 1 then runs ++ [run ++ [last] ++ [h]]
        else runs ++ [run ++ [last], [h]]) := by
  simp [extend, difference_eq hh hlast]

theorem foldlM_extend (runs : List (List (StripHit α))) (run : List (StripHit α))
    {last : StripHit α} {hits : List (StripHit α)} (hlast : Small last.strip)
    (hhits : ∀ h ∈ hits, Small h.strip) :
    hits.foldlM extend (runs.reverse ++ [run.reverse ++ [last]]) =
      some (List.splitBy.loop (fun a b => b.strip - a.strip ≤ 1) hits last run runs) := by
  induction hits generalizing runs run last with
  | nil => simp [List.splitBy.loop]
  | cons h hits ih =>
    have hh := hhits h List.mem_cons_self
    have hrest := fun x hx => hhits x (List.mem_cons_of_mem h hx)
    rw [List.foldlM_cons, extend_last _ _ hlast hh, List.splitBy.loop]
    by_cases hgap : h.strip - last.strip ≤ 1
    · have hnext := ih runs (last :: run) hh hrest
      rw [List.reverse_cons] at hnext
      simpa [hgap] using hnext
    · have hnext := ih ((last :: run).reverse :: runs) [] hh hrest
      simpa [hgap] using hnext

theorem groupStrips_eq [Scalar α] {hits : List (StripHit α)} (hsmall : ∀ h ∈ hits, Small h.strip) :
    groupStrips hits = some (ShowerTrack.groupStrips hits) := by
  have hsorted : ∀ h ∈ hits.mergeSort (fun a b => decide (a.strip ≤ b.strip)), Small h.strip :=
    fun h hh => hsmall h (List.mem_mergeSort.mp hh)
  rw [groupStrips, ShowerTrack.groupStrips]
  generalize hits.mergeSort (fun a b => decide (a.strip ≤ b.strip)) = sorted at hsorted
  cases sorted with
  | nil => rfl
  | cons h rest =>
    have hruns := foldlM_extend [] [] (hsorted h List.mem_cons_self)
      fun x hx => hsorted x (List.mem_cons_of_mem h hx)
    have hstart : extend [] h = some ([] ++ [[] ++ [h]]) := rfl
    rw [List.foldlM_cons, hstart]
    simp only [List.reverse_nil] at hruns
    simp only [Option.bind_eq_bind, Option.bind_some, hruns]
    rfl

end Groups

section Valleys

variable [Scalar α]

/-- The search for a valley at a list of positions: whether the charges descend, and the position
of the lowest strip since. -/
def valleyAt (threshold : α) (hits : List (StripHit α)) :
    Bool → Nat → List Nat → Option (Option Nat)
  | _, _, [] => some none
  | false, lowest, i :: rest => do
    let h ← hits[i]?
    let next ← hits[i + 1]?
    if threshold < h.charge - next.charge then valleyAt threshold hits true (i + 1) rest
    else valleyAt threshold hits false lowest rest
  | true, lowest, i :: rest => do
    let h ← hits[i]?
    let next ← hits[i + 1]?
    let low ← hits[lowest]?
    let lowest := if h.charge < low.charge then i else lowest
    if threshold < next.charge - h.charge then some (some lowest)
    else valleyAt threshold hits true lowest rest

def valley (threshold : α) (hits : List (StripHit α)) : Option (Option Nat) :=
  if hits.length < 3 then some none
  else do
    let last ← sub hits.length 1
    valleyAt threshold hits false 0 (List.range last)

inductive Knows (hits : List (StripHit α)) : Bool → Nat → Option (Nat × α) → Prop
  | flat (lowest : Nat) : Knows hits false lowest none
  | down {lowest : Nat} {low : StripHit α} (h : hits[lowest]? = some low) :
    Knows hits true lowest (some (lowest, low.charge))

theorem valleyAt_eq (threshold : α) (front : List (StripHit α)) (h : StripHit α)
    (rest : List (StripHit α)) {descending : Bool} {lowest : Nat} {low : Option (Nat × α)}
    (hlow : Knows (front ++ h :: rest) descending lowest low) :
    valleyAt threshold (front ++ h :: rest) descending lowest
        (List.range' front.length rest.length) =
      some (valleyFrom threshold low front.length ((h :: rest).map (·.charge))) := by
  induction rest generalizing front h descending lowest low with
  | nil => cases hlow <;> rfl
  | cons next rest ih =>
    have happend : front ++ h :: next :: rest = (front ++ [h]) ++ next :: rest := by simp
    have hlength : (front ++ [h]).length = front.length + 1 := List.length_append
    have hread : (front ++ h :: next :: rest)[front.length]? = some h := by simp
    have hread' : (front ++ h :: next :: rest)[front.length + 1]? = some next := by
      rw [happend, ← hlength]
      simp
    have hnext : ∀ {descending lowest low},
        Knows (front ++ h :: next :: rest) descending lowest low →
        valleyAt threshold (front ++ h :: next :: rest) descending lowest
            (List.range' (front.length + 1) rest.length) =
          some (valleyFrom threshold low (front.length + 1) ((next :: rest).map (·.charge))) := by
      intro descending lowest low hlow
      rw [happend] at hlow ⊢
      exact hlength ▸ ih (front ++ [h]) next hlow
    rw [List.length_cons, List.range'_succ, List.map_cons, List.map_cons]
    cases hlow with
    | flat =>
      rw [valleyAt, hread, hread']
      by_cases hdrop : threshold < h.charge - next.charge
      · simpa [hdrop, valleyFrom] using hnext (.down hread')
      · simpa [hdrop, valleyFrom] using hnext (.flat lowest)
    | down hlowest =>
      rw [valleyAt, hread, hread', hlowest]
      rename_i low
      by_cases hrise : threshold < next.charge - h.charge
      · by_cases hlower : h.charge < low.charge
        · simp [hrise, hlower, valleyFrom]
        · simp [hrise, hlower, valleyFrom]
      · by_cases hlower : h.charge < low.charge
        · simpa [hrise, hlower, valleyFrom] using hnext (.down hread)
        · simpa [hrise, hlower, valleyFrom] using hnext (.down hlowest)

theorem valley_eq (threshold : α) (hits : List (StripHit α)) :
    valley threshold hits = some (valley? threshold hits) := by
  rw [valley]
  split
  · rename_i hshort
    cases hv : valley? threshold hits with
    | none => rfl
    | some v =>
      have hbounds := valley_bounds threshold hits v hv
      omega
  · rename_i hlong
    cases hits with
    | nil => simp at hlong
    | cons h rest =>
      have hsub := sub_eq (show 1 ≤ (h :: rest).length by simp)
      have hvalley := valleyAt_eq threshold [] h rest (.flat 0)
      rw [List.length_nil, ← List.range_eq_range'] at hvalley
      rw [hsub]
      exact hvalley

end Valleys

section Splitting

def splitOff {β : Type} (xs : List β) (i : Nat) : Option (List β × List β) :=
  if i ≤ xs.length then some (xs.take i, xs.drop i) else none

/-- Room for a turn at each valley that a cluster can have, and for the one that leaves it. -/
def turns (c : StripCluster α) : Nat := 2 * (c.hits.length - 2) + 1

def totalTurns : List (StripCluster α) → Nat
  | [] => 0
  | c :: cs => turns c + totalTurns cs

def remaining (clusters : List (StripCluster α)) (i : Nat) : Nat := totalTurns (clusters.drop i)

theorem remaining_append (done todo : List (StripCluster α)) :
    remaining (done ++ todo) done.length = totalTurns todo := by
  rw [remaining, List.drop_left]

variable [Scalar α]

def parts (v : Nat) (hits : List (StripHit α)) :
    Option (List (StripHit α) × List (StripHit α)) := do
  let halved ← edit hits.toArray v fun h => some (halve h)
  let (left, right) ← splitOff halved.toList v
  let shared ← right[0]?
  some (left ++ [shared], right)

/-- One turn of the loop that splits clusters in place: at a valley of the cluster at a position
the loop stays there, otherwise it goes on to the next one. -/
def splitTurn (threshold : α) (clusters : List (StripCluster α)) (i : Nat) :
    Option (List (StripCluster α) × Nat) := do
  let c ← clusters[i]?
  match ← valley threshold c.hits with
  | none => some (clusters, i + 1)
  | some v => do
    let (left, right) ← parts v c.hits
    let (front, back) ← splitOff (clusters.set i { c with hits := left }) (i + 1)
    some (front ++ .ofHits right :: back, i)

/-- A turn that does not bring the end of the loop nearer has no result. -/
def splitLoop (threshold : α) (clusters : List (StripCluster α)) (i : Nat) :
    Option (List (StripCluster α)) :=
  if i < clusters.length then
    match splitTurn threshold clusters i with
    | none => none
    | some (next, j) =>
      if remaining next j < remaining clusters i then splitLoop threshold next j else none
  else some clusters
termination_by remaining clusters i

theorem parts_eq {v : Nat} {hits : List (StripHit α)} (hv : v < hits.length) :
    parts v hits = some (leftPart v hits, rightPart v hits) := by
  obtain ⟨front, h, back, rfl, rfl⟩ : ∃ front h back, hits = front ++ h :: back ∧
      front.length = v := ⟨hits.take v, hits[v], hits.drop (v + 1), by simp, by simp; omega⟩
  rw [parts, edit_middle]
  simp [splitOff, leftPart, rightPart]

theorem splitRun_ne_nil (threshold : α) (hits : List (StripHit α)) :
    splitRun threshold hits ≠ [] := by
  fun_induction splitRun threshold hits with
  | case1 => exact List.cons_ne_nil _ _
  | case2 hits v hv left right => exact List.append_ne_nil_of_left_ne_nil left _

theorem splitRun_stop {threshold : α} {hits : List (StripHit α)}
    (h : valley? threshold hits = none) : splitRun threshold hits = [hits] := by
  rw [splitRun]
  split
  · rfl
  · rename_i hv
    cases h.symm.trans hv

theorem splitRun_split {threshold : α} {hits : List (StripHit α)} {v : Nat}
    (h : valley? threshold hits = some v) : splitRun threshold hits =
      splitRun threshold (leftPart v hits) ++ splitRun threshold (rightPart v hits) := by
  rw [splitRun]
  split
  · rename_i hv
    cases h.symm.trans hv
  · rename_i hv
    obtain rfl := Option.some.inj (h.symm.trans hv)
    rfl

/-- The parts of a cluster are those of its left part and those of its right part. -/
theorem splitCluster_split {threshold : α} {c : StripCluster α} {v : Nat}
    (h : valley? threshold c.hits = some v) : splitCluster threshold c =
      splitCluster threshold { c with hits := leftPart v c.hits } ++
        splitCluster threshold (.ofHits (rightPart v c.hits)) := by
  obtain ⟨left, lefts, hleft⟩ :=
    List.exists_cons_of_ne_nil (splitRun_ne_nil threshold (leftPart v c.hits))
  obtain ⟨right, rights, hright⟩ :=
    List.exists_cons_of_ne_nil (splitRun_ne_nil threshold (rightPart v c.hits))
  have hofHits : (StripCluster.ofHits (rightPart v c.hits)).hits = rightPart v c.hits := rfl
  simp [splitCluster, splitRun_split h, hleft, hofHits, hright]
  rfl

theorem splitTurn_stop {threshold : α} {c : StripCluster α} (done todo : List (StripCluster α))
    (h : valley? threshold c.hits = none) :
    splitTurn threshold (done ++ c :: todo) done.length =
      some ((done ++ [c]) ++ todo, (done ++ [c]).length) := by
  have hread : (done ++ c :: todo)[done.length]? = some c := by simp
  rw [splitTurn, hread]
  simp [valley_eq, h]

theorem splitTurn_split {threshold : α} {c : StripCluster α} (done todo : List (StripCluster α))
    {v : Nat} (h : valley? threshold c.hits = some v) :
    splitTurn threshold (done ++ c :: todo) done.length =
      some (done ++ { c with hits := leftPart v c.hits } ::
        .ofHits (rightPart v c.hits) :: todo, done.length) := by
  have hread : (done ++ c :: todo)[done.length]? = some c := by simp
  have hbounds := valley_bounds threshold c.hits v h
  have hparts := parts_eq (show v < c.hits.length by omega)
  rw [splitTurn, hread]
  simp [valley_eq, h, hparts, splitOff, List.take_append, List.drop_append,
    List.take_of_length_le, List.drop_eq_nil_of_le]

theorem splitLoop_turn {threshold : α} {done next todo rest : List (StripCluster α)}
    {c : StripCluster α} (hturn : splitTurn threshold (done ++ c :: todo) done.length =
      some (next ++ rest, next.length)) (hnear : totalTurns rest < totalTurns (c :: todo)) :
    splitLoop threshold (done ++ c :: todo) done.length =
      splitLoop threshold (next ++ rest) next.length := by
  have hinside : done.length < (done ++ c :: todo).length := by simp
  rw [← remaining_append next, ← remaining_append done] at hnear
  rw [splitLoop, if_pos hinside, hturn]
  exact if_pos hnear

theorem turns_parts {c : StripCluster α} {v : Nat} (hv : 1 ≤ v ∧ v + 1 < c.hits.length) :
    turns { c with hits := leftPart v c.hits } + turns (.ofHits (rightPart v c.hits)) <
      turns c := by
  have hleft := length_leftPart v c.hits (by omega)
  have hright := length_rightPart v c.hits (by omega)
  simp only [turns, StripCluster.ofHits, hleft, hright]
  omega

theorem splitLoop_eq (threshold : α) (done todo : List (StripCluster α)) :
    splitLoop threshold (done ++ todo) done.length =
      some (done ++ todo.flatMap (splitCluster threshold)) := by
  generalize hturns : totalTurns todo = n
  induction n using Nat.strongRecOn generalizing done todo with
  | ind n ih =>
    subst hturns
    cases todo with
    | nil =>
      rw [splitLoop]
      simp
    | cons c todo =>
      cases h : valley? threshold c.hits with
      | none =>
        have hnear : totalTurns todo < totalTurns (c :: todo) := by
          rw [totalTurns, turns]
          omega
        have hstop : splitCluster threshold c = [c] := by
          rw [splitCluster, splitRun_stop h]
          rfl
        rw [splitLoop_turn (splitTurn_stop done todo h) hnear, ih _ hnear _ _ rfl,
          List.flatMap_cons, hstop, List.append_assoc]
      | some v =>
        have hnear : totalTurns ({ c with hits := leftPart v c.hits } ::
            .ofHits (rightPart v c.hits) :: todo) < totalTurns (c :: todo) := by
          have hparts := turns_parts (valley_bounds threshold c.hits v h)
          simp only [totalTurns]
          omega
        rw [splitLoop_turn (splitTurn_split done todo h) hnear, ih _ hnear _ _ rfl,
          List.flatMap_cons, List.flatMap_cons, List.flatMap_cons, splitCluster_split h,
          List.append_assoc]

end Splitting

section Clusters

variable [Scalar α]

def formClusters (s : TrackerSettings α) (hits : List (StripHit α)) :
    Option (List (StripCluster α)) := do
  let groups ← groupStrips hits
  let clusters ← splitLoop s.splitDifference groups 0
  some ((flagCrossTalk s ((clusters.filter (hasAllowedSize s)).map (·.measure))).filter
    (!·.crossTalk))

theorem formClusters_eq (s : TrackerSettings α) {hits : List (StripHit α)}
    (hsmall : ∀ h ∈ hits, Small h.strip) :
    formClusters s hits = some (ShowerTrack.formClusters s hits) := by
  have hsplit := splitLoop_eq s.splitDifference [] (ShowerTrack.groupStrips hits)
  rw [List.nil_append, List.nil_append, List.length_nil] at hsplit
  rw [formClusters, groupStrips_eq hsmall, Option.bind_eq_bind, Option.bind_some, hsplit]
  rfl

end Clusters

section Crossings

variable [Scalar α]

def crossings (detector : Detector) (xs ys : List (StripCluster α)) :
    Option (List (TrackerHit α) × Nat) := do
  let total ← mul xs.length ys.length
  match crossRows detector ys xs [] with
  | (hits, true) => do
    let overflow ← sub total maxTrackerHits
    some (hits, overflow)
  | (hits, false) => some (hits, 0)

theorem crossings_eq (detector : Detector) {xs ys : List (StripCluster α)}
    (hroom : xs.length * ys.length < UInt64.size) :
    crossings detector xs ys = some (ShowerTrack.crossings detector xs ys) := by
  rw [crossings, mul_eq hroom, ShowerTrack.crossings, crossRows_eq detector (Nat.zero_le _)]
  by_cases hfull : maxTrackerHits < xs.length * ys.length
  · simp [hfull, sub_eq hfull.le]
  · simp [hfull]

end Crossings

section Sizes

variable [Scalar α]

theorem length_splitRun (threshold : α) (hits : List (StripHit α)) :
    (splitRun threshold hits).length ≤ hits.length - 2 + 1 := by
  fun_induction splitRun threshold hits with
  | case1 => simp
  | case2 hits v hv left right =>
    have hbounds := valley_bounds threshold hits v hv
    rw [length_leftPart v hits (by omega)] at left
    rw [length_rightPart v hits (by omega)] at right
    rw [List.length_append]
    omega

theorem length_splitCluster {threshold : α} {c : StripCluster α} (hne : c.hits ≠ []) :
    (splitCluster threshold c).length ≤ c.hits.length := by
  have hpos := List.length_pos_iff.mpr hne
  have hsplit := length_splitRun threshold c.hits
  have hlength : (splitCluster threshold c).length = (splitRun threshold c.hits).length := by
    rw [splitCluster]
    split <;> simp [*]
  omega

/-- There are no more clusters than hits. -/
theorem length_formClusters (s : TrackerSettings α) (hits : List (StripHit α)) :
    (ShowerTrack.formClusters s hits).length ≤ hits.length := by
  have hgroups : ∀ c ∈ ShowerTrack.groupStrips hits, c.hits ≠ [] := by
    intro c hc
    obtain ⟨run, hrun, rfl⟩ := List.mem_map.mp hc
    exact List.ne_nil_of_mem_splitBy hrun
  have htotal : ((ShowerTrack.groupStrips hits).map fun c => c.hits.length).sum = hits.length := by
    have hflatten := congrArg List.length (List.flatten_splitBy
      (fun a b : StripHit α => b.strip - a.strip ≤ 1) (hits.mergeSort fun a b => a.strip ≤ b.strip))
    rw [List.length_flatten, List.length_mergeSort] at hflatten
    rw [ShowerTrack.groupStrips, List.map_map]
    exact hflatten
  have hflag : ∀ cs : List (StripCluster α), (flagCrossTalk s cs).length = cs.length := by
    intro cs
    rw [flagCrossTalk]
    split
    · rfl
    · exact List.length_map _
  calc
    (ShowerTrack.formClusters s hits).length
      ≤ (splitClusters s (ShowerTrack.groupStrips hits)).length := by
        refine (List.length_filter_le _ _).trans ?_
        rw [hflag, List.length_map]
        exact List.length_filter_le _ _
    _ = ((ShowerTrack.groupStrips hits).map fun c =>
          (splitCluster s.splitDifference c).length).sum :=
        List.length_flatMap
    _ ≤ ((ShowerTrack.groupStrips hits).map fun c => c.hits.length).sum :=
        List.sum_le_sum fun c hc => length_splitCluster (hgroups c hc)
    _ = hits.length := htotal

end Sizes

end ShowerTrack.Checked
