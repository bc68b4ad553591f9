import ShowerTrack.Proofs.Dealing

/-!
# Events of one number

Sorting by number keeps events of one number in the order in which the workers bring them, and
that order hangs on the number of workers. The events of a run are the same for every number of
workers exactly when the events of one number, apart from the first event of all, are reconstructed
alike.
-/

set_option autoImplicit false

namespace ShowerTrack.Reconstructor

variable {α : Type}

/-- Events of one number keep their order. -/
theorem filter_byNumber (es : List (Event α)) (n : Nat) :
    (byNumber es).filter (·.number == n) = es.filter (·.number == n) := by
  have hties : (es.filter (·.number == n)).Pairwise fun a b => decide (a.number ≤ b.number) := by
    rw [List.pairwise_iff_forall_sublist]
    intro a b hab
    have ha : a ∈ es.filter (·.number == n) := hab.subset (by simp)
    have hb : b ∈ es.filter (·.number == n) := hab.subset (by simp)
    rw [List.mem_filter, beq_iff_eq] at ha hb
    exact decide_eq_true (by omega)
  have hsub : (es.filter (·.number == n)).Sublist (byNumber es) :=
    List.sublist_mergeSort (key_le_trans Event.number) (key_le_total Event.number) hties
      List.filter_sublist
  have hfilter := hsub.filter (·.number == n)
  rw [List.filter_filter] at hfilter
  simp only [Bool.and_self] at hfilter
  have hlength : ((byNumber es).filter (·.number == n)).length =
      (es.filter (·.number == n)).length :=
    ((List.mergeSort_perm es _).filter _).length_eq
  exact (hfilter.eq_of_length hlength.symm).symm

theorem filter_of_cons {β : Type} {p : β → Bool} {x : β} {xs ys : List β}
    (h : (x :: xs).filter p = (x :: ys).filter p) : xs.filter p = ys.filter p := by
  rw [List.filter_cons, List.filter_cons] at h
  split at h
  · exact (List.cons.inj h).2
  · exact h

theorem mem_of_filter {xs ys : List (Event α)}
    (h : ∀ n, xs.filter (·.number == n) = ys.filter (·.number == n)) {e : Event α} (he : e ∈ xs) :
    e ∈ ys := by
  have hfilter : e ∈ xs.filter (·.number == e.number) := by simp [he]
  rw [h] at hfilter
  exact List.mem_of_mem_filter hfilter

/-- Sorted events are known from the events of each number. -/
theorem eq_of_sorted {xs ys : List (Event α)}
    (hsx : xs.Pairwise fun a b => a.number ≤ b.number)
    (hsy : ys.Pairwise fun a b => a.number ≤ b.number)
    (h : ∀ n, xs.filter (·.number == n) = ys.filter (·.number == n)) : xs = ys := by
  induction xs generalizing ys with
  | nil =>
    symm
    rw [List.eq_nil_iff_forall_not_mem]
    intro e he
    exact absurd (mem_of_filter (fun n => (h n).symm) he) List.not_mem_nil
  | cons x xs ih =>
    cases ys with
    | nil => exact absurd (mem_of_filter h List.mem_cons_self) List.not_mem_nil
    | cons y ys =>
      obtain ⟨hxs, hx⟩ := List.pairwise_cons.mp hsx
      obtain ⟨hys, hy⟩ := List.pairwise_cons.mp hsy
      have hyx := mem_of_filter (fun n => (h n).symm) (List.mem_cons_self (a := y))
      have hxy := mem_of_filter h (List.mem_cons_self (a := x))
      have hnumber : x.number = y.number := by
        apply Nat.le_antisymm
        · rcases List.mem_cons.mp hyx with heq | hyx
          · rw [heq]
          · exact hxs y hyx
        · rcases List.mem_cons.mp hxy with heq | hxy
          · rw [heq]
          · exact hys x hxy
      have hheads := h x.number
      rw [List.filter_cons_of_pos (by simp), List.filter_cons_of_pos (by simp [hnumber]),
        List.cons.injEq] at hheads
      obtain rfl := hheads.1
      rw [ih hx hy fun n => filter_of_cons (h n)]

theorem byNumber_eq_iff (xs ys : List (Event α)) : byNumber xs = byNumber ys ↔
    ∀ n, xs.filter (·.number == n) = ys.filter (·.number == n) := by
  constructor
  · intro h n
    rw [← filter_byNumber, h, filter_byNumber]
  · intro h
    apply eq_of_sorted (byNumber_sorted xs) (byNumber_sorted ys)
    intro n
    rw [filter_byNumber, filter_byNumber, h n]

variable [Elementary α]

/-- The events of a run are sorted from the order in which they were dealt. -/
theorem physicsRun_events (r : Reconstructor α) (events : Array (RawEvent α)) (workers : Nat) :
    (r.physicsRun events workers).1 =
      byNumber ((dealt events workers).map fun e => (r.reconstruct e).2) := by
  have hevents : (r.physicsRun events workers).1 =
      byNumber ((r.workAll events workers).map (·.1)) := rfl
  rw [hevents, workAll_eq, List.map_map]
  rfl

theorem number_reconstruct (r : Reconstructor α) (e : RawEvent α) :
    (r.reconstruct e).2.number = e.number := rfl

/-- Events that differ only in the order of what is reconstructed alike are sorted alike. -/
theorem filter_of_alike {r : Reconstructor α} {xs ys : List (RawEvent α)} (hperm : xs.Perm ys)
    (halike : ∀ e ∈ xs, ∀ f ∈ xs, e.number = f.number →
      (r.reconstruct e).2 = (r.reconstruct f).2) (n : Nat) :
    (xs.map fun e => (r.reconstruct e).2).filter (·.number == n) =
      (ys.map fun e => (r.reconstruct e).2).filter (·.number == n) := by
  apply eq_of_perm_of_alike ((hperm.map _).filter _)
  intro a ha b hb
  rw [List.mem_filter, List.mem_map, beq_iff_eq] at ha hb
  obtain ⟨⟨e, he, rfl⟩, hen⟩ := ha
  obtain ⟨⟨f, hf, rfl⟩, hfn⟩ := hb
  exact halike e he f hf (hen.trans hfn.symm)

/-- Two entries of one number that two numbers of workers bring second are reconstructed alike if
the runs are alike. -/
theorem eq_of_physicsRun_eq {r : Reconstructor α} {events : Array (RawEvent α)}
    {first e f : RawEvent α} {others : List (RawEvent α)} (h : events.toList = first :: others)
    {i j : Nat} (hi : others[i]? = some e) (hj : others[j]? = some f)
    (hnumber : e.number = f.number)
    (hruns : (r.physicsRun events (i + 1)).1 = (r.physicsRun events (j + 1)).1) :
    (r.reconstruct e).2 = (r.reconstruct f).2 := by
  obtain ⟨xs, hxs⟩ := dealt_second h hi
  obtain ⟨ys, hys⟩ := dealt_second h hj
  rw [physicsRun_events, physicsRun_events, hxs, hys, byNumber_eq_iff] at hruns
  have hties := filter_of_cons (hruns e.number)
  rw [List.map_cons, List.map_cons, List.filter_cons_of_pos (by simp [number_reconstruct]),
    List.filter_cons_of_pos (by simp [number_reconstruct, hnumber])] at hties
  exact (List.cons.inj hties).1

/-- The number of workers does not show in the events of a run exactly when any two events of one
number, neither of which is the first event, are reconstructed alike. -/
theorem physicsRun_eq_iff (r : Reconstructor α) (events : Array (RawEvent α)) :
    (∀ n m, 1 ≤ n → 1 ≤ m → (r.physicsRun events n).1 = (r.physicsRun events m).1) ↔
      ∀ e ∈ events.toList.tail, ∀ f ∈ events.toList.tail, e.number = f.number →
        (r.reconstruct e).2 = (r.reconstruct f).2 := by
  match hlist : events.toList with
  | [] => simp [physicsRun_events, dealt_nil hlist]
  | first :: others =>
    rw [List.tail_cons]
    constructor
    · intro hsame e he f hf hnumber
      obtain ⟨i, hi⟩ := List.getElem?_of_mem he
      obtain ⟨j, hj⟩ := List.getElem?_of_mem hf
      exact eq_of_physicsRun_eq hlist hi hj hnumber (hsame _ _ (by omega) (by omega))
    · intro halike n m _ _
      obtain ⟨xs, hxs, hxperm⟩ := dealt_first hlist n
      obtain ⟨ys, hys, hyperm⟩ := dealt_first hlist m
      rw [physicsRun_events, physicsRun_events, hxs, hys, byNumber_eq_iff]
      intro number
      have hrest := filter_of_alike (r := r) (hxperm.trans hyperm.symm)
        (fun e he f hf => halike e (hxperm.mem_iff.mp he) f (hxperm.mem_iff.mp hf)) number
      rw [List.map_cons, List.map_cons, List.filter_cons, List.filter_cons, hrest]

/-- Of three events of one number, two workers bring the last one before the second. -/
theorem two_workers_swap_ties :
    let r : Reconstructor Float32 := .build .standard ⟨#[], #[]⟩ .nominal ∅
    let events : Array (RawEvent Float32) := #[⟨7, [], []⟩, ⟨7, [⟨1351, 500⟩], []⟩, ⟨7, [], []⟩]
    (r.physicsRun events 1).1 ≠ (r.physicsRun events 2).1 := by
  intro r events hruns
  have hhits : (r.reconstruct ⟨7, [⟨1351, 500⟩], []⟩).2.caloHits.length = 1 := by decide +kernel
  have hnone : (r.reconstruct ⟨7, [], []⟩).2.caloHits.length = 0 := by decide +kernel
  have hsecond : (r.reconstruct ⟨7, [⟨1351, 500⟩], []⟩).2 = (r.reconstruct ⟨7, [], []⟩).2 :=
    eq_of_physicsRun_eq (i := 0) (j := 1) rfl rfl rfl rfl hruns
  rw [hsecond, hnone] at hhits
  exact absurd hhits (by decide)

end ShowerTrack.Reconstructor
