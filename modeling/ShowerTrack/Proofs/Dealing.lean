import Mathlib.Data.Int.CardIntervalMod
import ShowerTrack.Proofs.Crew

/-!
# Dealing

Dealt out in turn, the numbers fall to the workers by what they leave when divided by the number
of workers. Joined again, worker after worker, the first number stays first, and a number that is
the number of workers comes second. The shares of two workers differ by one number at most.
-/

set_option autoImplicit false

namespace ShowerTrack

def share (workers n worker : Nat) : List Nat :=
  (List.range n).filter (· % workers == worker)

theorem share_succ (workers n worker : Nat) : share workers (n + 1) worker =
    share workers n worker ++ if n % workers = worker then [n] else [] := by
  rw [share, List.range_succ, List.filter_append, share]
  by_cases h : n % workers = worker
  · simp [h]
  · simp [h]

theorem deal_eq (workers n : Nat) :
    deal workers n = (List.range workers).map fun worker => (share workers n worker).reverse := by
  induction n with
  | zero => simp [deal, share, List.map_const']
  | succ n ih =>
    apply List.ext_getElem?
    intro worker
    rw [deal, ih, List.getElem?_modify, List.getElem?_map, List.getElem?_map]
    by_cases hworker : worker < workers
    · rw [List.getElem?_range hworker]
      by_cases hturn : n % workers = worker
      · simp [share_succ, hturn]
      · simp [share_succ, hturn]
    · rw [List.getElem?_eq_none (by simpa using hworker)]
      rfl

theorem subsets_eq (n workers : Nat) : subsets n workers =
    ((List.range (max workers 1)).map (share (max workers 1) n)).filter (!·.isEmpty) := by
  rw [subsets, deal_eq, List.filter_map, List.map_map, List.filter_map]
  simp only [Function.comp_def, List.isEmpty_reverse, List.reverse_reverse]

theorem flatten_subsets (n workers : Nat) : (subsets n workers).flatten =
    (List.range (max workers 1)).flatMap (share (max workers 1) n) := by
  rw [subsets_eq, List.flatten_filter_not_isEmpty, List.flatMap_def]

/-- The first worker begins with the first number. -/
theorem share_first {n : Nat} (h : 0 < n) (workers : Nat) :
    ∃ later, share workers n 0 = 0 :: later := by
  obtain ⟨n, rfl⟩ := Nat.exists_eq_add_one.mpr h
  refine ⟨((List.range n).map (· + 1)).filter (· % workers == 0), ?_⟩
  rw [share, List.range_succ_eq_map, List.filter_cons_of_pos (by simp)]

/-- Of as many workers as a number says, the first one goes on with that number. -/
theorem share_stride {n workers : Nat} (hpos : 0 < workers) (h : workers < n) :
    ∃ later, share workers n 0 = 0 :: workers :: later := by
  obtain ⟨more, rfl⟩ := Nat.exists_eq_add_of_lt h
  have hround : (List.range workers).filter (· % workers == 0) = [0] := by
    have hzero : ∀ i ∈ List.range workers, (i % workers == 0) = (i == 0) := by
      intro i hi
      rw [Nat.mod_eq_of_lt (List.mem_range.mp hi)]
    rw [List.filter_congr hzero, List.filter_beq,
      List.count_eq_one_of_mem List.nodup_range (List.mem_range.mpr hpos), List.replicate_one]
  have hrange : List.range (workers + more + 1) =
      List.range workers ++ workers :: (List.range more).map (workers + 1 + ·) := by
    rw [Nat.add_assoc, List.range_add, List.range_succ_eq_map, List.map_cons, List.map_map]
    congr 2
    apply List.map_congr_left
    intro i _
    simp only [Function.comp_apply]
    omega
  refine ⟨((List.range more).map (workers + 1 + ·)).filter (· % workers == 0), ?_⟩
  rw [share, hrange, List.filter_append, hround, List.filter_cons_of_pos (by simp)]
  rfl

/-- The entries of a list in the order in which the workers bring them. -/
def dealt {β : Type} (xs : Array β) (workers : Nat) : List β :=
  (subsets xs.size workers).flatMap (pick xs)

section Dealt

variable {β : Type} {xs : Array β} {first : β} {others : List β}

theorem dealt_nil (h : xs.toList = []) (workers : Nat) : dealt xs workers = [] := by
  apply List.Perm.eq_nil
  rw [← h]
  exact flatMap_pick_perm xs workers

theorem dealt_eq (xs : Array β) (workers : Nat) : dealt xs workers =
    ((List.range (max workers 1)).flatMap (share (max workers 1) xs.size)).filterMap
      (xs.toList[·]?) := by
  rw [dealt, flatMap_pick, flatten_subsets]

/-- Only the first entry keeps its place, whatever the number of workers. -/
theorem dealt_first (h : xs.toList = first :: others) (workers : Nat) :
    ∃ rest, dealt xs workers = first :: rest ∧ rest.Perm others := by
  have hsize : 0 < xs.size := by
    rw [← Array.length_toList, h]
    exact Nat.succ_pos _
  obtain ⟨later, hlater⟩ := share_first hsize (max workers 1)
  have hdealt : ∃ rest, dealt xs workers = first :: rest := by
    obtain ⟨more, hmore⟩ := Nat.exists_eq_add_one.mpr (show 0 < max workers 1 by omega)
    rw [dealt_eq, hmore, List.range_succ_eq_map, List.flatMap_cons, ← hmore, hlater,
      List.cons_append, List.filterMap_cons_some (b := first) (by rw [h]; rfl)]
    exact ⟨_, rfl⟩
  obtain ⟨rest, hrest⟩ := hdealt
  refine ⟨rest, hrest, ?_⟩
  have hperm : (dealt xs workers).Perm xs.toList := flatMap_pick_perm xs workers
  rw [hrest, h] at hperm
  exact hperm.cons_inv

/-- As many workers as the place of an entry says bring that entry second. -/
theorem dealt_second (h : xs.toList = first :: others) {i : Nat} {x : β}
    (hi : others[i]? = some x) : ∃ rest, dealt xs (i + 1) = first :: x :: rest := by
  have hentry : xs.toList[i + 1]? = some x := by
    rw [h]
    exact hi
  have hsize : i + 1 < xs.size := by
    rw [← Array.length_toList]
    exact (List.getElem?_eq_some_iff.mp hentry).1
  obtain ⟨later, hlater⟩ := share_stride (Nat.succ_pos i) hsize
  have hworkers : max (i + 1) 1 = i + 1 := by omega
  rw [dealt_eq, hworkers, List.range_succ_eq_map, List.flatMap_cons, hlater, List.cons_append,
    List.cons_append, List.filterMap_cons_some (b := first) (by rw [h]; rfl),
    List.filterMap_cons_some hentry]
  exact ⟨_, rfl⟩

end Dealt

section Shares

variable {workers n worker : Nat}

theorem mem_share {i : Nat} : i ∈ share workers n worker ↔ i < n ∧ i % workers = worker := by
  simp [share]

/-- Once all have had a turn the numbers left over go to the first workers. -/
theorem length_share (h : worker < workers) : (share workers n worker).length =
    n / workers + if worker < n % workers then 1 else 0 := by
  have hcount := Nat.count_modEq_card n (Nat.zero_lt_of_lt h) worker
  rw [Nat.mod_eq_of_lt h, Nat.count, List.countP_eq_length_filter] at hcount
  rw [← hcount, share]
  congr 1
  apply List.filter_congr
  intro i _
  simp only [Nat.ModEq, Nat.mod_eq_of_lt h]
  rfl

theorem share_eq_nil_iff (h : worker < workers) : share workers n worker = [] ↔ n ≤ worker := by
  rw [List.eq_nil_iff_forall_not_mem]
  constructor
  · intro hnone
    have hown := hnone worker
    rw [mem_share, Nat.mod_eq_of_lt h] at hown
    omega
  · intro hle i hi
    rw [mem_share] at hi
    have hmod := Nat.mod_le i workers
    omega

/-- Those who get something come before the idle ones. -/
theorem map_share_eq (workers n : Nat) : (List.range workers).map (share workers n) =
    (List.range (min n workers)).map (share workers n) ++
      List.replicate (workers - min n workers) [] := by
  have hsplit : List.range workers = List.range (min n workers) ++
      (List.range (workers - min n workers)).map (min n workers + ·) := by
    rw [← List.range_add]
    congr 1
    omega
  conv_lhs => rw [hsplit, List.map_append, List.map_map]
  congr 1
  rw [List.eq_replicate_iff]
  refine ⟨by simp, ?_⟩
  intro hand hhand
  obtain ⟨i, hi, rfl⟩ := List.mem_map.mp hhand
  rw [List.mem_range] at hi
  have hworker : min n workers + i < workers := by omega
  exact (share_eq_nil_iff hworker).mpr (by omega)

theorem subsets_eq_shares (n workers : Nat) : subsets n workers =
    (List.range (min n (max workers 1))).map (share (max workers 1) n) := by
  rw [subsets_eq, map_share_eq, List.filter_append, List.filter_replicate, if_neg (by simp),
    List.append_nil, List.filter_eq_self]
  intro hand hhand
  obtain ⟨i, hi, rfl⟩ := List.mem_map.mp hhand
  rw [List.mem_range] at hi
  simpa using mt (share_eq_nil_iff (by omega)).mp (by omega)

theorem length_subsets (n workers : Nat) :
    (subsets n workers).length = min n (max workers 1) := by
  rw [subsets_eq_shares, List.length_map, List.length_range]

theorem getElem?_subsets (h : worker < (subsets n workers).length) :
    (subsets n workers)[worker]? = some (share (max workers 1) n worker) := by
  rw [length_subsets] at h
  rw [subsets_eq_shares, List.getElem?_map, List.getElem?_range h, Option.map_some]

theorem exists_share {s : List Nat} (h : s ∈ subsets n workers) :
    ∃ worker < min n (max workers 1), share (max workers 1) n worker = s := by
  simpa [subsets_eq_shares] using h

theorem existsUnique_share {i : Nat} (h : i < n) (workers : Nat) :
    ∃! worker : Nat, ∃ s, (subsets n workers)[worker]? = some s ∧ i ∈ s := by
  have hturn : i % max workers 1 < (subsets n workers).length := by
    rw [length_subsets, Nat.lt_min]
    exact ⟨(Nat.mod_le _ _).trans_lt h, Nat.mod_lt _ (by omega)⟩
  refine ⟨i % max workers 1, ⟨_, getElem?_subsets hturn, mem_share.mpr ⟨h, rfl⟩⟩, ?_⟩
  rintro worker ⟨s, hs, his⟩
  have hworker : worker < (subsets n workers).length := (List.getElem?_eq_some_iff.mp hs).1
  rw [getElem?_subsets hworker, Option.some.injEq] at hs
  subst hs
  exact (mem_share.mp his).2.symm

theorem length_le_of_mem_subsets {s t : List Nat} (hs : s ∈ subsets n workers)
    (ht : t ∈ subsets n workers) : s.length ≤ t.length + 1 := by
  obtain ⟨i, hi, rfl⟩ := exists_share hs
  obtain ⟨j, hj, rfl⟩ := exists_share ht
  rw [length_share (by omega), length_share (by omega)]
  split <;> split <;> omega

theorem ne_nil_of_mem_subsets {s : List Nat} (h : s ∈ subsets n workers) : s ≠ [] := by
  obtain ⟨worker, hworker, rfl⟩ := exists_share h
  exact mt (share_eq_nil_iff (by omega)).mp (by omega)

theorem hands_eq (n workers : Nat) : (deal (max workers 1) n).map List.reverse =
    subsets n workers ++ List.replicate (max workers 1 - (subsets n workers).length) [] := by
  have hhands : (deal (max workers 1) n).map List.reverse =
      (List.range (max workers 1)).map (share (max workers 1) n) := by
    simp [deal_eq, Function.comp_def]
  rw [hhands, length_subsets, map_share_eq, subsets_eq_shares]

end Shares

/-- Every number below the bound is dealt once, in turn, and no two shares differ by two. -/
structure Balanced (n workers : Nat) (shares : List (List Nat)) : Prop where
  length : shares.length = min n workers
  share : ∀ worker < shares.length,
    shares[worker]? = some ((List.range n).filter (· % workers = worker))
  nonempty : ∀ s ∈ shares, s ≠ []
  once : ∀ i < n, ∃! worker : Nat, ∃ s, shares[worker]? = some s ∧ i ∈ s
  perm : shares.flatten.Perm (List.range n)
  even : ∀ s ∈ shares, ∀ t ∈ shares, s.length ≤ t.length + 1

/-- Without the idle workers all others keep their places and their shares. -/
theorem shares_balanced (n workers : Nat) :
    Balanced n (max workers 1) (subsets n workers) ∧
      (deal (max workers 1) n).map List.reverse =
        subsets n workers ++ List.replicate (max workers 1 - (subsets n workers).length) [] := by
  refine ⟨?_, hands_eq n workers⟩
  exact {
    length := length_subsets n workers
    share := fun _ => getElem?_subsets
    nonempty := fun _ => ne_nil_of_mem_subsets
    once := fun _ hi => existsUnique_share hi workers
    perm := flatten_subsets_perm n workers
    even := fun _ hs _ ht => length_le_of_mem_subsets hs ht }

/-- More workers than numbers, and none at all. -/
example : subsets 7 3 = [[0, 3, 6], [1, 4], [2, 5]] ∧ subsets 2 4 = [[0], [1]] ∧
    subsets 2 0 = [[0, 1]] := by decide

end ShowerTrack
