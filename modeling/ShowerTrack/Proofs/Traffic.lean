import ShowerTrack.Proofs.Crew
import ShowerTrack.Proofs.Progress

/-!
# Traffic of messages

The messages of the workers get into one queue in any order among each other, and wait there until
they are received. The latest counts never add up to more than there are events, and once all
workers have returned they add up to all of them.
-/

set_option autoImplicit false

namespace ShowerTrack

/-- The messages that each worker has still to send, those that wait to be received, and those that
were. -/
structure Traffic (α : Type) where
  unsent : List (List (Status α))
  queue : List (Status α)
  received : List (Status α)

namespace Traffic

variable {α : Type}

/-- A worker sends its next message, or the oldest message that waits is received. -/
inductive Move where
  | send (worker : Nat)
  | receive

def ofWorker (worker : Nat) (ms : List (Status α)) : List (Status α) :=
  ms.filter (·.worker == worker)

def latest (ms : List (Status α)) (worker : Nat) : Nat :=
  ((ofWorker worker ms).getLast?.map (·.done)).getD 0

def tally (workers : Nat) (ms : List (Status α)) : Nat :=
  ((List.range workers).map (latest ms)).sum

def step (t : Traffic α) : Move → Traffic α
  | .send worker =>
    match t.unsent[worker]? with
    | some (m :: ms) => { t with unsent := t.unsent.set worker ms, queue := t.queue ++ [m] }
    | _ => t
  | .receive =>
    match t.queue with
    | m :: ms => { t with queue := ms, received := t.received ++ [m] }
    | [] => t

def run (t : Traffic α) (moves : List Move) : Traffic α := moves.foldl step t

theorem run_append (t : Traffic α) (moves more : List Move) :
    t.run (moves ++ more) = (t.run moves).run more := List.foldl_append

def sent (t : Traffic α) : List (Status α) := t.received ++ t.queue

def Returned (t : Traffic α) : Prop := ∀ ms ∈ t.unsent, ms = []

section Finish

/-- A worker behind others sends a message. -/
theorem step_send (front back : List (List (Status α))) (m : Status α)
    (ms queue received : List (Status α)) :
    step ⟨front ++ (m :: ms) :: back, queue, received⟩ (.send front.length) =
      ⟨front ++ ms :: back, queue ++ [m], received⟩ := by
  simp [step]

theorem exists_run_send (front back : List (List (Status α))) (queue received : List (Status α)) :
    ∃ moves, run ⟨front ++ back, queue, received⟩ moves =
      ⟨front ++ back.map fun _ => [], queue ++ back.flatten, received⟩ := by
  -- on the workers that are left, and for the first of them on its messages
  induction back generalizing front queue with
  | nil => exact ⟨[], by simp [run]⟩
  | cons ms back ih =>
    induction ms generalizing queue with
    | nil =>
      obtain ⟨moves, hmoves⟩ := ih (front ++ [[]]) queue
      exact ⟨moves, by simpa using hmoves⟩
    | cons m ms ihWorker =>
      obtain ⟨moves, hmoves⟩ := ihWorker (queue ++ [m])
      refine ⟨.send front.length :: moves, ?_⟩
      rw [run, List.foldl_cons, step_send]
      simpa [run] using hmoves

theorem exists_run_receive (unsent : List (List (Status α))) (queue received : List (Status α)) :
    ∃ moves, run ⟨unsent, queue, received⟩ moves = ⟨unsent, [], received ++ queue⟩ := by
  induction queue generalizing received with
  | nil => exact ⟨[], by simp [run]⟩
  | cons m ms ih =>
    obtain ⟨moves, hmoves⟩ := ih (received ++ [m])
    refine ⟨.receive :: moves, ?_⟩
    rw [List.append_cons]
    exact hmoves

/-- The workers can always send what they have left, one after the other, so that all messages are
received. -/
theorem exists_run_finish (t : Traffic α) : ∃ moves, t.run moves =
    ⟨t.unsent.map fun _ => [], [], t.sent ++ t.unsent.flatten⟩ := by
  obtain ⟨sends, hsends⟩ := exists_run_send [] t.unsent t.queue t.received
  obtain ⟨receives, hreceives⟩ := exists_run_receive (t.unsent.map fun _ => [])
    (t.queue ++ t.unsent.flatten) t.received
  refine ⟨sends ++ receives, ?_⟩
  rw [run_append, sent, List.append_assoc, ← hreceives]
  exact congrArg (run · receives) hsends

end Finish

variable [Scalar α]

def start (number : Int) (phase : Phase) (shares : List (List Nat)) : Traffic α :=
  ⟨shares.zipIdx.map fun (share, worker) => Status.report worker number phase share.length, [], []⟩

def reportOf (number : Int) (phase : Phase) (shares : List (List Nat)) (worker : Nat) :
    List (Status α) :=
  (shares[worker]?.map fun share => Status.report worker number phase share.length).getD []

/-- Every worker has sent the first of its messages in their order, and none is lost. -/
def Orderly (number : Int) (phase : Phase) (shares : List (List Nat)) (t : Traffic α) : Prop :=
  ∀ worker, ofWorker worker t.sent ++ t.unsent[worker]?.getD [] =
    reportOf number phase shares worker

variable {number : Int} {phase : Phase} {shares : List (List Nat)} {t : Traffic α}

theorem worker_of_mem_reportOf {worker : Nat} {m : Status α}
    (h : m ∈ reportOf number phase shares worker) : m.worker = worker := by
  unfold reportOf at h
  cases hshare : shares[worker]? with
  | none => simp [hshare] at h
  | some share =>
    rw [hshare, Option.map_some, Option.getD_some] at h
    exact (Status.mem_report h).1

theorem orderly_start : Orderly number phase shares (start number phase shares : Traffic α) := by
  intro worker
  have hunsent : (start number phase shares : Traffic α).unsent[worker]?.getD [] =
      reportOf number phase shares worker := by
    rw [start, List.getElem?_map, List.getElem?_zipIdx, Option.map_map, Nat.zero_add]
    rfl
  rw [hunsent]
  rfl

theorem Orderly.send (h : Orderly number phase shares t) (worker : Nat) :
    Orderly number phase shares (t.step (.send worker)) := by
  rw [step]
  cases hunsent : t.unsent[worker]? with
  | none => exact h
  | some ms =>
    cases ms with
    | nil => exact h
    | cons m ms =>
      have hm : m.worker = worker := by
        have hmem : m ∈ reportOf number phase shares worker := by
          rw [← h worker, hunsent]
          simp
        exact worker_of_mem_reportOf hmem
      obtain ⟨hbound, hnext⟩ := List.getElem?_eq_some_iff.mp hunsent
      -- the message counts for its own worker only, whose unsent messages lose it
      intro other
      rw [← h other, List.getElem?_set]
      by_cases hother : worker = other
      · subst hother
        simp [sent, ofWorker, hm, hbound, hnext]
      · simp [sent, ofWorker, hm, hother]

theorem Orderly.step (h : Orderly number phase shares t) (move : Move) :
    Orderly number phase shares (t.step move) := by
  cases move with
  | send worker => exact h.send worker
  | receive =>
    intro worker
    rw [← h worker, Traffic.step]
    cases hqueue : t.queue with
    | nil => rfl
    | cons m ms =>
      simp only [sent, hqueue]
      rw [← List.append_cons]

theorem Orderly.run (h : Orderly number phase shares t) (moves : List Move) :
    Orderly number phase shares (t.run moves) := by
  induction moves generalizing t with
  | nil => exact h
  | cons move moves ih => exact ih (h.step move)

/-- What a worker has sent, or what of it was received, are the first of its messages. -/
theorem Orderly.isPrefix (h : Orderly number phase shares t) {ms : List (Status α)}
    (hms : ms <+: t.sent) {worker : Nat} {share : List Nat}
    (hshare : shares[worker]? = some share) :
    ofWorker worker ms <+: Status.report worker number phase share.length := by
  have hreport : reportOf number phase shares worker =
      (Status.report worker number phase share.length : List (Status α)) := by
    rw [reportOf, hshare]
    rfl
  rw [← hreport, ← h worker]
  exact (hms.filter _).trans (List.prefix_append _ _)

theorem Orderly.eq_report (h : Orderly number phase shares t) {worker : Nat} {share : List Nat}
    (hshare : shares[worker]? = some share) (hreturned : t.unsent[worker]?.getD [] = []) :
    ofWorker worker t.sent = Status.report worker number phase share.length := by
  have hworker := h worker
  rw [hreturned, List.append_nil, reportOf, hshare] at hworker
  exact hworker

/-- The messages of the workers one after the other are received on one of the schedules. -/
theorem exists_run_reports (number : Int) (phase : Phase) (shares : List (List Nat)) :
    ∃ moves, ((start number phase shares : Traffic α).run moves).received =
      Status.reports number phase shares := by
  obtain ⟨moves, hmoves⟩ := exists_run_finish (start number phase shares : Traffic α)
  refine ⟨moves, ?_⟩
  rw [hmoves]
  rfl

section Tallies

variable {ms : List (Status α)}

theorem latest_le {worker total : Nat} (h : Status.Progresses total (ofWorker worker ms)) :
    latest ms worker ≤ total := by
  unfold latest
  cases hlast : (ofWorker worker ms).getLast? with
  | none => exact Nat.zero_le total
  | some m => exact h.bounded m (List.mem_of_getLast? hlast)

theorem latest_eq {worker total : Nat} (h : Status.Completes total (ofWorker worker ms)) :
    latest ms worker = total := by
  obtain ⟨m, hm, hdone, -⟩ := h.last
  rw [latest, Option.mem_def.mp hm, Option.map_some, Option.getD_some, hdone]

omit [Scalar α] in
theorem tally_eq_sum (shares : List (List Nat)) (ms : List (Status α)) :
    tally shares.length ms = (shares.zipIdx.map fun x => latest ms x.2).sum := by
  have hworkers : List.range shares.length = shares.zipIdx.map Prod.snd := by
    rw [List.zipIdx_map_snd, List.range_eq_range']
  rw [tally, hworkers, List.map_map]
  rfl

theorem length_flatten_eq_sum (shares : List (List Nat)) :
    shares.flatten.length = (shares.zipIdx.map fun x => x.1.length).sum := by
  conv_lhs => rw [← List.zipIdx_map_fst 0 shares, List.length_flatten, List.map_map]
  rfl

theorem tally_le (h : ∀ worker share, shares[worker]? = some share →
    Status.Progresses share.length (ofWorker worker ms)) :
    tally shares.length ms ≤ shares.flatten.length := by
  rw [tally_eq_sum, length_flatten_eq_sum]
  apply List.sum_le_sum
  intro x hx
  exact latest_le (h x.2 x.1 (List.mem_zipIdx_iff_getElem?.mp hx))

theorem tally_eq (h : ∀ worker share, shares[worker]? = some share →
    Status.Completes share.length (ofWorker worker ms)) :
    tally shares.length ms = shares.flatten.length := by
  rw [tally_eq_sum, length_flatten_eq_sum]
  congr 1
  apply List.map_congr_left
  intro x hx
  exact latest_eq (h x.2 x.1 (List.mem_zipIdx_iff_getElem?.mp hx))

end Tallies

/-- What the messages tell of the workers, when they are sent and when they were received. -/
structure Tracks (shares : List (List Nat)) (t : Traffic α) : Prop where
  sent : ∀ worker share, shares[worker]? = some share →
    Status.Progresses share.length (ofWorker worker t.sent)
  received : ∀ worker share, shares[worker]? = some share →
    Status.Progresses share.length (ofWorker worker t.received)
  completed : ∀ worker share, shares[worker]? = some share → t.unsent[worker]? = some [] →
    Status.Completes share.length (ofWorker worker t.sent)
  sentTally : tally shares.length t.sent ≤ shares.flatten.length
  receivedTally : tally shares.length t.received ≤ shares.flatten.length
  returned : t.Returned → tally shares.length t.sent = shares.flatten.length ∧
    (t.queue = [] → tally shares.length t.received = shares.flatten.length)

theorem Orderly.tracks (h : Orderly number phase shares t) : t.Tracks shares := by
  have hsent : ∀ worker share, shares[worker]? = some share →
      Status.Progresses share.length (ofWorker worker t.sent) := fun worker share hshare =>
    .of_isPrefix (h.isPrefix List.prefix_rfl hshare)
  have hreceived : ∀ worker share, shares[worker]? = some share →
      Status.Progresses share.length (ofWorker worker t.received) := fun worker share hshare =>
    .of_isPrefix (h.isPrefix (List.prefix_append _ _) hshare)
  have hcompleted : ∀ worker share, shares[worker]? = some share →
      t.unsent[worker]?.getD [] = [] → Status.Completes share.length (ofWorker worker t.sent) :=
    fun worker share hshare hnone => .of_eq (h.eq_report hshare hnone)
  refine ⟨hsent, hreceived, ?_, tally_le hsent, tally_le hreceived, ?_⟩
  · intro worker share hshare hnone
    apply hcompleted worker share hshare
    rw [hnone, Option.getD_some]
  · intro hreturned
    have htally : tally shares.length t.sent = shares.flatten.length := by
      apply tally_eq
      intro worker share hshare
      apply hcompleted worker share hshare
      cases hunsent : t.unsent[worker]? with
      | none => rfl
      | some ms => exact hreturned ms (List.mem_of_getElem? hunsent)
    refine ⟨htally, ?_⟩
    intro hqueue
    rwa [Traffic.sent, hqueue, List.append_nil] at htally

omit [Scalar α] in
/-- Messages that keep the order of each worker can be sent in their order. -/
theorem exists_run_interleaved {ms : List (Status α)}
    (h : ∀ worker, ofWorker worker ms = t.unsent[worker]?.getD []) :
    ∃ moves, (t.run moves).sent = t.sent ++ ms ∧ (t.run moves).Returned := by
  induction ms generalizing t with
  | nil =>
    refine ⟨[], (List.append_nil _).symm, ?_⟩
    intro left hleft
    obtain ⟨worker, hworker⟩ := List.getElem?_of_mem (l := t.unsent) hleft
    have hnone := h worker
    rw [hworker, Option.getD_some] at hnone
    exact hnone.symm
  | cons m ms ih =>
    have hown : ofWorker m.worker (m :: ms) = m :: ofWorker m.worker ms := by
      simp [ofWorker]
    have hunsent : t.unsent[m.worker]? = some (m :: ofWorker m.worker ms) := by
      have hworker := h m.worker
      rw [hown] at hworker
      cases hleft : t.unsent[m.worker]? with
      | none => simp [hleft] at hworker
      | some left => simp [hleft, hworker]
    have hstep : t.step (.send m.worker) =
        ⟨t.unsent.set m.worker (ofWorker m.worker ms), t.queue ++ [m], t.received⟩ := by
      simp only [step, hunsent]
    have hrest : ∀ worker, ofWorker worker ms =
        (t.step (.send m.worker)).unsent[worker]?.getD [] := by
      intro worker
      obtain ⟨hbound, -⟩ := List.getElem?_eq_some_iff.mp hunsent
      rw [hstep, List.getElem?_set]
      by_cases hsame : m.worker = worker
      · simp [← hsame, hbound]
      · rw [if_neg hsame, ← h worker]
        simp [ofWorker, hsame]
    obtain ⟨moves, hsent, hreturned⟩ := ih hrest
    refine ⟨.send m.worker :: moves, hsent.trans ?_, hreturned⟩
    simp [hstep, sent]

def twoWorkers : Traffic Float32 :=
  (start 7 .reconstructing (subsets 5 2)).run
    [.send 1, .send 0, .receive, .send 0, .send 1, .receive, .send 0, .receive, .send 1, .send 0,
      .send 1, .receive, .send 0]

end Traffic

end ShowerTrack
