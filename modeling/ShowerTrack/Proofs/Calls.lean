import ShowerTrack.Proofs.Checked.Forest

/-!
# Calls on a partition

Finding an index climbs to its root and then points what lies on the way at it; joining two indices
finds both of them. No index points upward, so both loops end, the root is the least index of its
class, and the classes are those of the equivalence that the joined pairs generate, however often
indices were found in between.
-/

set_option autoImplicit false

namespace ShowerTrack

/-- A loop that takes turns from a state for as long as it goes on, and the state it ends in. -/
inductive LoopEnds {σ : Type} (goesOn : σ → Prop) (turn : σ → σ) : σ → σ → Prop
  | stop {s : σ} : ¬ goesOn s → LoopEnds goesOn turn s s
  | again {s t : σ} : goesOn s → LoopEnds goesOn turn (turn s) t → LoopEnds goesOn turn s t

namespace Partition

/-- How an index is found: one loop climbs to the root, another one follows the pointers again and
turns each of them to the root, until one points there. -/
structure Finds (p : Partition) (i r : Nat) (q : Partition) : Prop where
  climb : LoopEnds (fun node => p.next node ≠ node) p.next i r
  compression : ∃ last, LoopEnds (fun s : Nat × Partition => s.2.next s.1 ≠ r)
    (fun s => (s.2.next s.1, s.2.redirect s.1 r)) (i, p) (last, q)

section Loops

variable {p : Partition}

theorem climb_ends (hp : p.Descends) (i : Nat) :
    LoopEnds (fun node => p.next node ≠ node) p.next i (p.root i) := by
  induction i using Nat.strongRecOn with
  | ind i ih =>
    by_cases h : p.next i < i
    · rw [root_step h]
      exact .again h.ne (ih _ h)
    · rw [root_stop h]
      exact .stop (not_not.mpr ((hp i).antisymm (Nat.not_lt.mp h)))

/-- The loop ends where the checked one has a result. -/
theorem compression_ends {q : Partition} {i r : Nat} (h : Checked.compress p i r = some q) :
    ∃ last, LoopEnds (fun s : Nat × Partition => s.2.next s.1 ≠ r)
      (fun s => (s.2.next s.1, s.2.redirect s.1 r)) (i, p) (last, q) := by
  induction i using Nat.strongRecOn generalizing p with
  | ind i ih =>
    rw [Checked.compress] at h
    obtain ⟨next, hread, h⟩ := Option.bind_eq_some_iff.mp h
    obtain ⟨hi, hnext⟩ := Array.getElem?_eq_some_iff.mp hread
    have hpointer : p.next i = next := by simp [Partition.next, hi, hnext]
    split at h
    · rename_i hlast
      obtain rfl := Option.some.inj h
      exact ⟨i, .stop (not_not.mpr (hpointer.trans hlast))⟩
    · rename_i hfurther
      split at h
      · rename_i hlt
        rw [Checked.put_eq hi] at h
        obtain ⟨last, hrest⟩ := ih next hlt h
        refine ⟨last, .again ?_ ?_⟩
        · exact hpointer ▸ hfurther
        · rw [hpointer]
          exact hrest
      · cases h

theorem find_finds (hp : p.Descends) {i : Nat} (hi : i < p.size) :
    Finds p i (p.find i).1 (p.find i).2 :=
  ⟨climb_ends hp i, compression_ends (Checked.compress_eq hp hi)⟩

end Loops

inductive Call where
  | find (i : Nat)
  | union (a b : Nat)
  deriving DecidableEq, Repr

namespace Call

def Within (n : Nat) : Call → Prop
  | find i => i < n
  | union a b => a < n ∧ b < n

def run (p : Partition) : Call → Partition
  | find i => (p.find i).2
  | union a b => p.union a b

def joins : List Call → List (Nat × Nat)
  | [] => []
  | find _ :: calls => joins calls
  | union a b :: calls => (a, b) :: joins calls

end Call

def checkedRun (p : Partition) : Call → Option Partition
  | .find i => (Checked.find p i).map (·.2)
  | .union a b => Checked.union p a b

section Runs

variable {n : Nat} {pairs : List (Nat × Nat)} {p : Partition}

/-- Finding an index moves pointers and no index to another class. -/
theorem Generated.find (h : Generated n pairs p) (i : Nat) : Generated n pairs (p.find i).2 := by
  have hsame := find_sameRoots h.descends i
  refine ⟨hsame.descends, hsame.size.trans h.size, fun a ha b hb => ?_⟩
  rw [hsame.root, hsame.root]
  exact h.root a ha b hb

theorem Generated.run (h : Generated n pairs p) (calls : List Call)
    (hcalls : ∀ c ∈ calls, c.Within n) :
    Generated n (pairs ++ Call.joins calls) (calls.foldl Call.run p) := by
  induction calls generalizing pairs p with
  | nil => exact (List.append_nil pairs).symm ▸ h
  | cons c calls ih =>
    obtain ⟨hc, hrest⟩ := List.forall_mem_cons.mp hcalls
    cases c with
    | find i => exact ih (h.find i) hrest
    | union a b =>
      have hnext := ih (h.union hc.1 hc.2) hrest
      rw [List.append_assoc] at hnext
      exact hnext

theorem checkedRun_eq (h : Checked.Over n p) {c : Call} (hc : c.Within n) :
    checkedRun p c = some (c.run p) ∧ Checked.Over n (c.run p) := by
  cases c with
  | find i =>
    have hsame := find_sameRoots h.descends i
    rw [checkedRun, Checked.find_eq h.descends (h.size.symm ▸ hc)]
    exact ⟨rfl, hsame.descends, hsame.size.trans h.size⟩
  | union a b =>
    exact ⟨Checked.union_eq h.descends (h.size.symm ▸ hc.1) (h.size.symm ▸ hc.2),
      h.union hc.1 hc.2⟩

theorem joins_within {calls : List Call} (hcalls : ∀ c ∈ calls, c.Within n) :
    ∀ q ∈ Call.joins calls, q.1 < n ∧ q.2 < n := by
  induction calls with
  | nil => exact fun _ hq => absurd hq List.not_mem_nil
  | cons c calls ih =>
    obtain ⟨hc, hrest⟩ := List.forall_mem_cons.mp hcalls
    cases c with
    | find i => exact ih hrest
    | union a b => exact List.forall_mem_cons.mpr ⟨hc, ih hrest⟩

/-- Paths of pairs within a bound are the equivalence that the pairs generate. -/
theorem joined_iff_eqvGen (h : ∀ q ∈ pairs, q.1 < n ∧ q.2 < n) (i j : Nat) :
    Joined (Paired pairs) (List.range n) i j ↔ Relation.EqvGen (Paired pairs) i j := by
  constructor
  · intro path
    induction path with
    | refl => exact .refl i
    | tail _ link ih =>
      apply ih.trans
      rcases link.2.2 with hpair | hpair
      · exact .rel _ _ hpair
      · exact .symm _ _ (.rel _ _ hpair)
  · intro generated
    induction generated with
    | rel a b hpair =>
      have hbound := h (a, b) hpair
      exact Linked.joined ⟨List.mem_range.mpr hbound.1, List.mem_range.mpr hbound.2, .inl hpair⟩
    | refl a => exact .refl a
    | symm _ _ _ ih => exact ih.symm
    | trans _ _ _ _ _ ih ih' => exact ih.trans ih'

end Runs

/-- What a partition of the first `n` indices answers for the equivalence that pairs generate:
both loops of a find end, with the least index of the class, and leave every index to its root;
two indices have one root just when they are equivalent; and the groups are the classes. A find or
a union fails on an index out of range and on no other. -/
structure AnswersFor (n : Nat) (pairs : List (Nat × Nat)) (p : Partition) : Prop where
  guarded : (∀ i, Checked.find p i = p.find? i) ∧ ∀ a b, Checked.union p a b = p.union? a b
  inRange : ∀ i < n, Checked.find p i = some (p.find i)
  finds : ∀ i < n, Finds p i (p.find i).1 (p.find i).2
  least : ∀ i < n, IsLeast {j | j < n ∧ Relation.EqvGen (Paired pairs) i j} (p.find i).1
  kept : ∀ i < n, ∀ j < n, ((p.find i).2.find j).1 = (p.find j).1
  together : ∀ a < n, ∀ b < n,
    (p.find a).1 = (p.find b).1 ↔ Relation.EqvGen (Paired pairs) a b
  gathered : Checked.groups p = some p.groups
  partitioned : p.groups.flatten.Perm (List.range n) ∧ [] ∉ p.groups
  classes : ∀ g ∈ p.groups, ∀ a ∈ g, ∀ b, b ∈ g ↔ Relation.EqvGen (Paired pairs) a b
  ascending : Ascending p.groups

theorem Generated.answersFor {n : Nat} {pairs : List (Nat × Nat)} {p : Partition}
    (h : Generated n pairs p) (hpairs : ∀ q ∈ pairs, q.1 < n ∧ q.2 < n) :
    AnswersFor n pairs p := by
  have hin : ∀ {i}, i < n → i < p.size := fun hi => h.size.symm ▸ hi
  have htogether : ∀ a < n, ∀ b < n,
      (p.find a).1 = (p.find b).1 ↔ Relation.EqvGen (Paired pairs) a b := by
    intro a ha b hb
    rw [find_fst, find_fst, h.root a ha b hb, joined_iff_eqvGen hpairs]
  refine ⟨⟨Checked.find_eq_find? h.descends, Checked.union_eq_union? h.descends⟩,
    fun i hi => Checked.find_eq h.descends (hin hi),
    fun i hi => find_finds h.descends (hin hi), fun i hi => ⟨⟨?_, ?_⟩, ?_⟩,
    fun i _ j _ => (find_sameRoots h.descends i).root j, htogether,
    Checked.groups_eq h.descends, ⟨h.groups.perm, h.groups.inhabited⟩, ?_, groups_ascending p⟩
  · exact (p.root_le i).trans_lt hi
  · exact (htogether i hi _ ((p.root_le i).trans_lt hi)).mp (p.root_root i).symm
  · rintro j ⟨hj, hij⟩
    rw [(htogether i hi j hj).mpr hij]
    exact p.root_le j
  · intro g hg a ha b
    rw [h.groups.classes g hg a ha b, joined_iff_eqvGen hpairs]

/-- After any calls on separate indices the partition answers for the equivalence that the joined
pairs generate. -/
theorem calls_answer_for_pairs (n : Nat) (calls : List Call) (h : ∀ c ∈ calls, c.Within n) :
    calls.foldlM checkedRun (discrete n) = some (calls.foldl Call.run (discrete n)) ∧
      AnswersFor n (Call.joins calls) (calls.foldl Call.run (discrete n)) := by
  have hstart : Checked.Over n (discrete n) := ⟨descends_discrete n, Array.size_range⟩
  have hrun : Generated n (Call.joins calls) (calls.foldl Call.run (discrete n)) :=
    (generated_discrete n).run calls h
  have hchecked := Checked.foldlM_eq (f := checkedRun) (g := Call.run) (P := Checked.Over n)
    (fun p hp c hc => checkedRun_eq hp (h c hc)) hstart
  exact ⟨hchecked.1, hrun.answersFor (joins_within h)⟩

def sixIndices : List Call := [.union 4 1, .union 2 5, .find 5, .union 5 4, .find 5]

theorem six_indices_answer_for_pairs : (∀ c ∈ sixIndices, c.Within 6) ∧
    sixIndices.foldlM checkedRun (discrete 6) =
      some (sixIndices.foldl Call.run (discrete 6)) ∧
    AnswersFor 6 [(4, 1), (2, 5), (5, 4)] (sixIndices.foldl Call.run (discrete 6)) := by
  have hwithin : ∀ c ∈ sixIndices, c.Within 6 := by
    simp [sixIndices, Call.Within]
  exact ⟨hwithin, calls_answer_for_pairs 6 sixIndices hwithin⟩

end Partition

end ShowerTrack
