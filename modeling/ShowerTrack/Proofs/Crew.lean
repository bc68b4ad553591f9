import ShowerTrack.Proofs.Clearing
import ShowerTrack.Proofs.Connected
import ShowerTrack.Proofs.Keyed
import ShowerTrack.Workers

/-!
# The crew of a run

The workers of a run take their events in any order among each other. A schedule names the
worker that takes its next event, step after step; when nobody has anything left to do, the
results are joined in the order of the workers. Every schedule joins the same events.
-/

set_option autoImplicit false

namespace ShowerTrack

section Deal

theorem length_deal (workers n : Nat) : (deal workers n).length = workers := by
  induction n with
  | zero => exact List.length_replicate
  | succ n ih => rw [deal, List.length_modify, ih]

theorem flatten_modify_cons {β : Type} {hands : List (List β)} {i : Nat} (h : i < hands.length)
    (b : β) : (hands.modify i (b :: ·)).flatten.Perm (b :: hands.flatten) := by
  induction hands generalizing i with
  | nil => exact absurd h (Nat.not_lt_zero i)
  | cons hand hands ih =>
    cases i with
    | zero => exact .refl _
    | succ i =>
      rw [List.modify_succ_cons, List.flatten_cons, List.flatten_cons]
      exact ((ih (Nat.lt_of_succ_lt_succ h)).append_left hand).trans List.perm_middle

/-- Every number below the bound is dealt to exactly one hand, once. -/
theorem flatten_deal_perm {workers : Nat} (h : 0 < workers) (n : Nat) :
    (deal workers n).flatten.Perm (List.range n) := by
  induction n with
  | zero => simp [deal]
  | succ n ih =>
    have hhand : n % workers < (deal workers n).length := by
      rw [length_deal]
      exact Nat.mod_lt n h
    rw [deal, List.range_succ]
    exact (flatten_modify_cons hhand n).trans
      ((ih.cons n).trans (List.perm_append_singleton n _).symm)

theorem flatten_subsets_perm (events workers : Nat) :
    (subsets events workers).flatten.Perm (List.range events) := by
  have hreverse : ∀ hands : List (List Nat),
      (hands.map List.reverse).flatten.Perm hands.flatten := by
    intro hands
    induction hands with
    | nil => exact .refl _
    | cons hand hands ih => exact (List.reverse_perm hand).append ih
  rw [subsets]
  apply (hreverse _).trans
  rw [List.flatten_filter_not_isEmpty]
  exact flatten_deal_perm (by omega) events

theorem flatMap_pick {β : Type} (xs : Array β) (shares : List (List Nat)) :
    shares.flatMap (pick xs) = shares.flatten.filterMap (xs.toList[·]?) := by
  rw [List.filterMap_flatten, List.flatMap_def]
  simp only [Array.getElem?_toList]
  rfl

theorem flatMap_pick_perm {β : Type} (xs : Array β) (workers : Nat) :
    ((subsets xs.size workers).flatMap (pick xs)).Perm xs.toList := by
  rw [flatMap_pick]
  apply ((flatten_subsets_perm xs.size workers).filterMap _).trans
  rw [← Array.length_toList, filterMap_getElem?_range]

end Deal

variable {α : Type} [Elementary α]

namespace Reconstructor

theorem reconstructAll_eq (r : Reconstructor α) (es : List (RawEvent α)) :
    r.reconstructAll es = es.map fun e => ((r.reconstruct e).2, r.notices e) := by
  suffices h : ∀ t : Reconstructor α, t.clear = r.clear →
      t.reconstructAll es = es.map fun e => ((r.reconstruct e).2, r.notices e) from h r rfl
  induction es with
  | nil => exact fun _ _ => rfl
  | cons e es ih =>
    intro t ht
    have hnext : (t.reconstruct e).1.clear = r.clear := (t.clear_reconstruct e).trans ht
    rw [List.map_cons, ← ih _ hnext, ← reconstruct_congr ht e, ← notices_congr ht e]
    rfl

theorem workAll_eq (r : Reconstructor α) (events : Array (RawEvent α)) (workers : Nat) :
    r.workAll events workers = ((subsets events.size workers).flatMap (pick events)).map
      fun e => ((r.reconstruct e).2, r.notices e) := by
  simp only [workAll, reconstructAll_eq, List.map_flatMap]

theorem workAll_perm (r : Reconstructor α) (events : Array (RawEvent α)) (workers : Nat) :
    (r.workAll events workers).Perm
      (events.toList.map fun e => ((r.reconstruct e).2, r.notices e)) := by
  rw [workAll_eq]
  exact (flatMap_pick_perm events workers).map _

omit [Elementary α] in
theorem byNumber_sorted (es : List (Event α)) :
    (byNumber es).Pairwise fun a b => a.number ≤ b.number :=
  pairwise_mergeSort_key (·.number) es

end Reconstructor

structure Worker (α : Type) where
  reconstructor : Reconstructor α
  todo : List (RawEvent α)
  done : List (Event α)

namespace Worker

def step (w : Worker α) : Worker α :=
  match w.todo with
  | [] => w
  | e :: es =>
    let (reconstructor, event) := w.reconstructor.reconstruct e
    ⟨reconstructor, es, w.done ++ [event]⟩

def promised (r : Reconstructor α) (w : Worker α) : List (Event α) :=
  w.done ++ w.todo.map fun e => (r.reconstruct e).2

theorem clear_step (w : Worker α) : w.step.reconstructor.clear = w.reconstructor.clear := by
  unfold step
  split
  · rfl
  · exact w.reconstructor.clear_reconstruct _

theorem promised_step {r : Reconstructor α} {w : Worker α}
    (h : w.reconstructor.clear = r.clear) : w.step.promised r = w.promised r := by
  unfold step
  split
  · rfl
  · rename_i e es htodo
    simp only [promised, htodo, List.map_cons, Reconstructor.reconstruct_congr h e]
    exact List.append_assoc _ _ _

theorem length_todo_step {w : Worker α} (h : w.todo ≠ []) :
    w.step.todo.length < w.todo.length := by
  unfold step
  split
  · contradiction
  · rename_i e es htodo
    rw [htodo]
    exact Nat.lt_succ_self _

end Worker

abbrev Crew (α : Type) := List (Worker α)

namespace Crew

def spawn (r : Reconstructor α) (events : Array (RawEvent α)) (workers : Nat) : Crew α :=
  (subsets events.size workers).map fun share => ⟨r, pick events share, []⟩

def step (crew : Crew α) (i : Nat) : Crew α := crew.modify i Worker.step

def run (crew : Crew α) (schedule : List Nat) : Crew α := schedule.foldl step crew

def finished (crew : Crew α) : Bool := crew.all (·.todo.isEmpty)

def join (crew : Crew α) : List (Event α) := crew.flatMap (·.done)

def remaining (crew : Crew α) : Nat := (crew.flatMap (·.todo)).length

def Alike (r : Reconstructor α) (crew : Crew α) : Prop :=
  ∀ w ∈ crew, w.reconstructor.clear = r.clear

theorem alike_spawn (r : Reconstructor α) (events : Array (RawEvent α)) (workers : Nat) :
    Alike r (spawn r events workers) := by
  intro w hw
  obtain ⟨share, _, rfl⟩ := List.mem_map.mp hw
  rfl

theorem alike_step {r : Reconstructor α} {crew : Crew α} (h : Alike r crew) (i : Nat) :
    Alike r (crew.step i) := by
  have hclear : (crew.step i).map (·.reconstructor.clear) = crew.map (·.reconstructor.clear) :=
    map_modify_of_eq fun w _ => w.clear_step
  intro w hw
  have hmem := List.mem_map_of_mem (f := (·.reconstructor.clear)) hw
  rw [hclear] at hmem
  obtain ⟨v, hv, hvw⟩ := List.mem_map.mp hmem
  exact hvw.symm.trans (h v hv)

theorem promised_run {r : Reconstructor α} {crew : Crew α} (h : Alike r crew)
    (schedule : List Nat) :
    (crew.run schedule).map (Worker.promised r) = crew.map (Worker.promised r) := by
  induction schedule generalizing crew with
  | nil => rfl
  | cons i schedule ih =>
    have hstep : (crew.step i).map (Worker.promised r) = crew.map (Worker.promised r) :=
      map_modify_of_eq fun w hw => Worker.promised_step (h w hw)
    exact (ih (alike_step h i)).trans hstep

theorem join_of_finished (r : Reconstructor α) {crew : Crew α} (h : crew.finished = true) :
    crew.join = (crew.map (Worker.promised r)).flatten := by
  rw [join, List.flatMap_def]
  congr 1
  apply List.map_congr_left
  intro w hw
  have htodo : w.todo = [] := List.isEmpty_iff.mp (List.all_eq_true.mp h w hw)
  rw [Worker.promised, htodo, List.map_nil, List.append_nil]

/-- Whatever the schedule was, the joined events are those of the workers one after the other. -/
theorem join_run (r : Reconstructor α) (events : Array (RawEvent α)) (workers : Nat)
    {schedule : List Nat} (h : ((spawn r events workers).run schedule).finished = true) :
    ((spawn r events workers).run schedule).join = (r.workAll events workers).map (·.1) := by
  rw [join_of_finished r h, promised_run (alike_spawn r events workers), spawn, List.map_map,
    Reconstructor.workAll_eq, List.map_map, List.flatMap_def, List.map_flatten, List.map_map]
  rfl

theorem remaining_step {crew : Crew α} {i : Nat} {w : Worker α} (hw : crew[i]? = some w)
    (h : w.todo ≠ []) : (crew.step i).remaining < crew.remaining := by
  induction crew generalizing i with
  | nil => simp at hw
  | cons v crew ih =>
    cases i with
    | zero =>
      obtain rfl : v = w := by simpa using hw
      have hstep := Worker.length_todo_step h
      simp only [step, remaining, List.modify_zero_cons, List.flatMap_cons, List.length_append]
      omega
    | succ i =>
      have ih := ih (by simpa using hw)
      simp only [step, remaining, List.modify_succ_cons, List.flatMap_cons,
        List.length_append] at ih ⊢
      omega

/-- No crew is ever stuck. -/
theorem exists_finished_run (crew : Crew α) : ∃ schedule, (crew.run schedule).finished = true := by
  by_cases h : crew.finished = true
  · exact ⟨[], h⟩
  · have hworker : ∃ w ∈ crew, w.todo ≠ [] := by
      simpa [finished] using h
    obtain ⟨w, hw, htodo⟩ := hworker
    obtain ⟨i, hi⟩ := List.getElem?_of_mem hw
    have hless := remaining_step hi htodo
    obtain ⟨schedule, hfinished⟩ := exists_finished_run (crew.step i)
    exact ⟨i :: schedule, hfinished⟩
termination_by crew.remaining

/-- Every schedule on which the whole crew finishes gives the events of the run: each input
event once, as a new reconstructor makes it, in the order of the numbers. -/
theorem run_gives_events (r : Reconstructor α) (events : Array (RawEvent α)) (workers : Nat)
    {schedule : List Nat} (h : ((spawn r events workers).run schedule).finished = true) :
    let results := Reconstructor.byNumber ((spawn r events workers).run schedule).join
    results = (r.physicsRun events workers).1 ∧
      results.Pairwise (fun a b => a.number ≤ b.number) ∧
      results.Perm (events.toList.map fun e => (r.reconstruct e).2) := by
  intro results
  have hjoin : results = (r.physicsRun events workers).1 := by
    simp only [results, join_run r events workers h]
    rfl
  refine ⟨hjoin, Reconstructor.byNumber_sorted _, ?_⟩
  have hwork := (r.workAll_perm events workers).map (·.1)
  rw [List.map_map] at hwork
  rw [hjoin]
  exact (List.mergeSort_perm _ _).trans hwork

theorem run_of_three_gives_events :
    let r : Reconstructor Float32 := .build .standard ⟨#[], #[]⟩ .nominal ∅
    let events : Array (RawEvent Float32) := #[⟨7, [], []⟩, ⟨5, [⟨1351, 80⟩], []⟩, ⟨6, [], []⟩]
    ((spawn r events 2).run [1, 0, 1, 0]).finished = true ∧
      (Reconstructor.byNumber ((spawn r events 2).run [1, 0, 1, 0]).join).Perm
        (events.toList.map fun e => (r.reconstruct e).2) := by
  intro r events
  have h : ((spawn r events 2).run [1, 0, 1, 0]).finished = true := rfl
  exact ⟨h, (run_gives_events r events 2 h).2.2⟩

end Crew

end ShowerTrack
