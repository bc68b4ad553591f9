import ShowerTrack.Proofs.FirstHits

/-!
# Wiring

Whatever is plugged into a chamber, read from it and cleared, the lists of its planes hold every
card of the chamber once and under its own plane. Each plane keeps the first hits of its strips, a
charge is taken just when it makes one more hit, and a chamber with an unread plane stays without
crossings.
-/

set_option autoImplicit false

namespace ShowerTrack.Chamber

variable {α : Type}

inductive Call (α : Type) where
  | connect (kind : Plane) (slot : Nat)
  | add (kind : Plane) (strip : Int) (charge : α)
  | reconstruct (s : TrackerSettings α)
  | clear

def Call.meantFor (kind : Plane) : Call α → List (StripPlane.Call α)
  | add other strip charge => if other = kind then [.add ⟨strip, charge, false⟩] else []
  | clear => [.clear]
  | connect _ _ => []
  | reconstruct _ => []

structure Wired (c : Chamber α) : Prop where
  distinct : c.cards.Nodup
  once : (c.xPlane.cards ++ c.yPlane.cards).Perm (List.range c.cards.length)
  named : ∀ kind, ∀ i ∈ (c.plane kind).cards, ∃ card ∈ c.cards[i]?, card.plane = kind

section Cards

variable {c : Chamber α} {kind : Plane} {slot : Nat}

/-- A slot that is taken answers with the card that is there. -/
theorem connect_of_taken (hn : c.cards.Nodup) {i : Nat} (hi : c.cards[i]? = some ⟨kind, slot⟩) :
    c.connect kind slot = (c, i, false) := by
  have hsearch : c.cards.findIdx? (· == ⟨kind, slot⟩) = some i := by
    obtain ⟨hbound, hcard⟩ := List.getElem?_eq_some_iff.mp hi
    rw [List.findIdx?_eq_some_iff_getElem]
    refine ⟨hbound, by simp [hcard], ?_⟩
    intro j hj hsame
    have hindex := (List.Nodup.getElem_inj_iff hn).mp ((eq_of_beq hsame).trans hcard.symm)
    omega
  rw [connect, hsearch]

/-- A free slot gets the next index, which goes to the plane too. -/
theorem connect_of_free (h : ⟨kind, slot⟩ ∉ c.cards) :
    c.connect kind slot =
      ({ c.withPlane kind
            { c.plane kind with cards := (c.plane kind).cards ++ [c.cards.length] } with
          cards := c.cards ++ [⟨kind, slot⟩] }, c.cards.length, true) := by
  have hsearch : c.cards.findIdx? (· == ⟨kind, slot⟩) = none := by
    rw [List.findIdx?_eq_none_iff]
    intro card hcard
    exact beq_false_of_ne (ne_of_mem_of_not_mem hcard h)
  rw [connect, hsearch]

theorem cards_connect_of_free (h : ⟨kind, slot⟩ ∉ c.cards) (other : Plane) :
    ((c.connect kind slot).1.plane other).cards =
      if other = kind then (c.plane other).cards ++ [c.cards.length]
      else (c.plane other).cards := by
  rw [connect_of_free h]
  cases kind <;> cases other <;> rfl

theorem Wired.connect (h : c.Wired) (kind : Plane) (slot : Nat) :
    (c.connect kind slot).1.Wired := by
  by_cases hmem : ⟨kind, slot⟩ ∈ c.cards
  · obtain ⟨i, hi⟩ := List.mem_iff_getElem?.mp hmem
    rw [connect_of_taken h.distinct hi]
    exact h
  · have hcards : (c.connect kind slot).1.cards = c.cards ++ [⟨kind, slot⟩] := by
      rw [connect_of_free hmem]
    have hplanes := cards_connect_of_free hmem
    constructor
    · rw [hcards]
      exact List.nodup_append_comm.mp (List.nodup_cons.mpr ⟨hmem, h.distinct⟩)
    · have hx := hplanes .x
      have hy := hplanes .y
      simp only [plane] at hx hy
      rw [hcards, hx, hy, List.length_append, List.length_singleton, List.range_succ]
      have hlast := h.once.append_right [c.cards.length]
      cases kind with
      | x =>
        refine List.Perm.trans ?_ hlast
        simp only [if_true, reduceCtorEq, if_false, List.append_assoc]
        exact List.perm_append_comm.append_left _
      | y => simpa using hlast
    · intro other i hi
      rw [hplanes] at hi
      rw [hcards]
      have hold : ∀ i ∈ (c.plane other).cards,
          ∃ card ∈ (c.cards ++ [⟨kind, slot⟩])[i]?, card.plane = other := by
        intro i hi
        obtain ⟨card, hcard, hplane⟩ := h.named other i hi
        have hbound := (List.getElem?_eq_some_iff.mp hcard).1
        exact ⟨card, by rwa [List.getElem?_append_left hbound], hplane⟩
      by_cases hsame : other = kind
      · rw [if_pos hsame] at hi
        rcases List.mem_append.mp hi with hi | hi
        · exact hold i hi
        · rw [List.mem_singleton.mp hi]
          exact ⟨⟨kind, slot⟩, List.getElem?_concat_length, hsame.symm⟩
      · rw [if_neg hsame] at hi
        exact hold i hi

theorem Wired.congr (h : c.Wired) {d : Chamber α} (hcards : d.cards = c.cards)
    (hplanes : ∀ kind, (d.plane kind).cards = (c.plane kind).cards) : d.Wired where
  distinct := hcards ▸ h.distinct
  once := by
    have hx : d.xPlane.cards = c.xPlane.cards := hplanes .x
    have hy : d.yPlane.cards = c.yPlane.cards := hplanes .y
    rw [hx, hy, hcards]
    exact h.once
  named kind i hi := by
    rw [hcards]
    exact h.named kind i (hplanes kind ▸ hi)

end Cards

theorem unread?_eq_none_iff {c : Chamber α} :
    c.unread? = none ↔ ∀ kind, (c.plane kind).cards ≠ [] := by
  rw [unread?, List.find?_eq_none]
  constructor
  · intro h kind
    have hplane := h kind (by cases kind <;> decide)
    simpa using hplane
  · intro h kind _
    simpa using h kind

variable [Scalar α]

def respond (c : Chamber α) : Call α → Chamber α
  | .connect kind slot => (c.connect kind slot).1
  | .add kind strip charge => (c.add kind strip charge).1
  | .reconstruct s => c.reconstruct s
  | .clear => c.clear

section Add

variable (c : Chamber α) (kind : Plane) (strip : Int) (charge : α)

theorem plane_add (other : Plane) : (c.add kind strip charge).1.plane other =
    if kind = other then ((c.plane other).add strip charge false).1 else c.plane other := by
  cases kind <;> cases other <;> rfl

theorem add_snd : (c.add kind strip charge).2 = (c.plane kind).judge strip :=
  (c.plane kind).add_snd strip charge false

theorem add_of_refused (h : (c.add kind strip charge).2 ≠ .taken) :
    (c.add kind strip charge).1 = c := by
  have hplane : ((c.plane kind).add strip charge false).1 = c.plane kind := by
    rw [StripPlane.add_fst, if_neg]
    rwa [← add_snd c kind strip charge]
  change c.withPlane kind ((c.plane kind).add strip charge false).1 = c
  rw [hplane]
  cases kind <;> rfl

end Add

theorem reconstruct_of_unread {c : Chamber α} (h : ∃ kind, (c.plane kind).cards = [])
    (s : TrackerSettings α) : c.reconstruct s = { c with hits := [], overflow := 0 } := by
  cases hunread : c.unread? with
  | none =>
    obtain ⟨kind, hkind⟩ := h
    exact absurd hkind (unread?_eq_none_iff.mp hunread kind)
  | some kind => rw [reconstruct, hunread]

/-- Beside what is meant for its hits, a call changes the cards and the clusters of a plane. -/
theorem plane_respond (c : Chamber α) (call : Call α) (kind : Plane) :
    ∃ cards clusters, (c.respond call).plane kind =
      { (call.meantFor kind).foldl StripPlane.respond (c.plane kind) with cards, clusters } := by
  cases call with
  | connect other slot =>
    rw [respond, connect]
    split
    · exact ⟨_, _, rfl⟩
    · cases other <;> cases kind <;> exact ⟨_, _, rfl⟩
  | add other strip charge =>
    rw [respond, plane_add]
    by_cases hsame : other = kind
    · rw [Call.meantFor, if_pos hsame, if_pos hsame]
      exact ⟨_, _, rfl⟩
    · rw [Call.meantFor, if_neg hsame, if_neg hsame]
      exact ⟨_, _, rfl⟩
  | reconstruct s =>
    rw [respond, reconstruct]
    split
    · exact ⟨_, _, rfl⟩
    · cases kind <;> exact ⟨_, _, rfl⟩
  | clear => cases kind <;> exact ⟨_, _, rfl⟩

/-- Planes that are faithful to what was meant for them, wired cards, and no crossings as long as a
plane is unread. -/
structure Faithful (c : Chamber α) (origin : Plane → StripPlane.Origin α)
    (calls : List (Call α)) : Prop where
  planes : ∀ kind, (c.plane kind).Faithful
    ((origin kind).calls ++ calls.flatMap (Call.meantFor kind))
  built : ∀ kind, (c.plane kind).IsFrom (origin kind)
  wired : c.Wired
  silent : (∃ kind, (c.plane kind).cards = []) → c.hits = [] ∧ c.overflow = 0

theorem faithful_build (detector : Detector) (origin : Plane → StripPlane.Origin α) :
    (build detector (origin .x).plane (origin .y).plane).Faithful origin [] where
  planes kind := by
    rw [List.flatMap_nil, List.append_nil]
    cases kind with
    | x => exact (origin .x).faithful_plane
    | y => exact (origin .y).faithful_plane
  built kind := by
    cases kind with
    | x => exact (origin .x).isFrom_plane
    | y => exact (origin .y).isFrom_plane
  wired := by
    have hnone : ∀ kind, ((build detector (origin .x).plane (origin .y).plane).plane kind).cards =
        [] := by
      intro kind
      cases kind with
      | x => exact (origin .x).cards_plane
      | y => exact (origin .y).cards_plane
    refine ⟨List.nodup_nil, ?_, ?_⟩
    · have hx := hnone .x
      have hy := hnone .y
      simp only [plane] at hx hy
      rw [hx, hy]
      exact .nil
    · intro kind i hi
      rw [hnone] at hi
      cases hi
  silent _ := ⟨rfl, rfl⟩

/-- Only plugging in changes the wiring. -/
theorem cards_respond (c : Chamber α) {call : Call α}
    (h : ∀ kind slot, call ≠ .connect kind slot) :
    (c.respond call).cards = c.cards ∧
      ∀ kind, ((c.respond call).plane kind).cards = (c.plane kind).cards := by
  cases call with
  | connect kind slot => exact absurd rfl (h kind slot)
  | add kind strip charge =>
    constructor
    · cases kind <;> rfl
    · intro other
      rw [respond, plane_add]
      split
      · exact StripPlane.cards_respond _ (.add ⟨strip, charge, false⟩)
      · rfl
  | reconstruct s =>
    rw [respond, reconstruct]
    split
    · exact ⟨rfl, fun _ => rfl⟩
    · exact ⟨rfl, fun kind => by cases kind <;> rfl⟩
  | clear => exact ⟨rfl, fun kind => by cases kind <;> rfl⟩

namespace Faithful

variable {c : Chamber α} {origin : Plane → StripPlane.Origin α} {calls : List (Call α)}
  (h : c.Faithful origin calls)

include h

theorem planes_respond (call : Call α) (kind : Plane) : ((c.respond call).plane kind).Faithful
    ((origin kind).calls ++ (calls ++ [call]).flatMap (Call.meantFor kind)) := by
  obtain ⟨cards, clusters, hplane⟩ := c.plane_respond call kind
  rw [hplane, List.flatMap_append, List.flatMap_singleton, ← List.append_assoc]
  exact ((h.planes kind).run (call.meantFor kind)).dress cards clusters

theorem built_respond (call : Call α) (kind : Plane) :
    ((c.respond call).plane kind).IsFrom (origin kind) := by
  obtain ⟨cards, clusters, hplane⟩ := c.plane_respond call kind
  rw [hplane]
  exact (h.built kind).run (call.meantFor kind)

theorem wired_respond (call : Call α) : (c.respond call).Wired := by
  by_cases hconnect : ∃ kind slot, call = .connect kind slot
  · obtain ⟨kind, slot, rfl⟩ := hconnect
    exact h.wired.connect kind slot
  · obtain ⟨hcards, hplanes⟩ := c.cards_respond fun kind slot heq => hconnect ⟨kind, slot, heq⟩
    exact h.wired.congr hcards hplanes

theorem silent_respond (call : Call α)
    (hunread : ∃ kind, ((c.respond call).plane kind).cards = []) :
    (c.respond call).hits = [] ∧ (c.respond call).overflow = 0 := by
  cases call with
  | connect kind slot =>
    by_cases hmem : ⟨kind, slot⟩ ∈ c.cards
    · obtain ⟨i, hi⟩ := List.mem_iff_getElem?.mp hmem
      rw [respond, connect_of_taken h.wired.distinct hi] at hunread ⊢
      exact h.silent hunread
    · obtain ⟨other, hother⟩ := hunread
      rw [respond, cards_connect_of_free hmem] at hother
      have hbefore : (c.plane other).cards = [] := by
        split at hother
        · simp at hother
        · exact hother
      have hsame := h.silent ⟨other, hbefore⟩
      rw [respond, connect_of_free hmem]
      cases kind <;> exact hsame
  | add kind strip charge =>
    obtain ⟨other, hother⟩ := hunread
    rw [(c.cards_respond (by simp)).2] at hother
    have hsame := h.silent ⟨other, hother⟩
    cases kind <;> exact hsame
  | reconstruct s =>
    obtain ⟨other, hother⟩ := hunread
    rw [(c.cards_respond (by simp)).2] at hother
    rw [respond, reconstruct_of_unread ⟨other, hother⟩]
    exact ⟨rfl, rfl⟩
  | clear => exact ⟨rfl, rfl⟩

theorem respond (call : Call α) : (c.respond call).Faithful origin (calls ++ [call]) where
  planes := h.planes_respond call
  built := h.built_respond call
  wired := h.wired_respond call
  silent := h.silent_respond call

theorem run (more : List (Call α)) :
    (more.foldl Chamber.respond c).Faithful origin (calls ++ more) := by
  induction more generalizing c calls with
  | nil => rwa [List.append_nil]
  | cons call more ih =>
    rw [List.append_cons]
    exact ih (h.respond call)

/-- Cards that are plugged in say nothing to the hits. -/
theorem connectAll (cards : List Card) : (c.connectAll cards).Faithful origin calls := by
  have hrun := h.run (cards.map fun card => .connect card.plane card.slot)
  rw [List.foldl_map] at hrun
  have hmeant : ∀ kind,
      (calls ++ cards.map fun card : Card => Call.connect card.plane card.slot).flatMap
        (Call.meantFor kind) = calls.flatMap (Call.meantFor kind) := by
    intro kind
    simp [Call.meantFor]
  exact ⟨fun kind => hmeant kind ▸ hrun.planes kind, hrun.built, hrun.wired, hrun.silent⟩

end Faithful

structure Recalls (c : Chamber α) (origin : Plane → StripPlane.Origin α)
    (calls : List (Call α)) : Prop where
  planes : ∀ kind, (c.plane kind).Recalls (origin kind) (calls.flatMap (Call.meantFor kind))
  taken : ∀ kind strip charge, (c.add kind strip charge).2 = .taken ↔
    (c.plane kind).Reads strip ∧ strip ∉ (c.plane kind).hits.map (·.strip)
  appends : ∀ kind strip charge, (c.add kind strip charge).2 = .taken ↔
    ∃ hit, ((c.add kind strip charge).1.plane kind).hits = (c.plane kind).hits ++ [hit]
  refused : ∀ kind strip charge, (c.add kind strip charge).2 ≠ .taken →
    (c.add kind strip charge).1 = c
  distinct : c.cards.Nodup
  once : (c.xPlane.cards ++ c.yPlane.cards).Perm (List.range c.cards.length)
  named : ∀ kind, ∀ i ∈ (c.plane kind).cards, ∃ card ∈ c.cards[i]?, card.plane = kind
  reconnected : ∀ (i : Nat) kind slot, c.cards[i]? = some ⟨kind, slot⟩ →
    c.connect kind slot = (c, i, false)
  silent : (∃ kind, (c.plane kind).cards = []) → c.hits = [] ∧ c.overflow = 0 ∧
    ∀ s, (c.reconstruct s).hits = [] ∧ (c.reconstruct s).overflow = 0

theorem Faithful.recalls {c : Chamber α} {origin : Plane → StripPlane.Origin α}
    {calls : List (Call α)} (h : c.Faithful origin calls) : c.Recalls origin calls where
  planes kind := (h.planes kind).recalls (h.built kind)
  taken kind strip charge := by
    rw [add_snd, StripPlane.judge_eq_taken]
    apply and_congr_right
    intro hreads
    rw [← (h.planes kind).fired strip hreads, Bool.not_eq_true]
  appends kind strip charge := by
    rw [add_snd, plane_add, if_pos rfl, StripPlane.add_fst]
    by_cases htaken : (c.plane kind).judge strip = .taken
    · rw [if_pos htaken]
      exact ⟨fun _ => ⟨_, rfl⟩, fun _ => htaken⟩
    · rw [if_neg htaken]
      simp [htaken]
  refused := c.add_of_refused
  distinct := h.wired.distinct
  once := h.wired.once
  named := h.wired.named
  reconnected _ _ _ := connect_of_taken h.wired.distinct
  silent hunread := by
    obtain ⟨hhits, hoverflow⟩ := h.silent hunread
    refine ⟨hhits, hoverflow, ?_⟩
    intro s
    rw [reconstruct_of_unread hunread]
    exact ⟨rfl, rfl⟩

/-- After any calls to a new chamber, with planes that may have been called before, or to a standard
one: marks and hits agree, the first accepted charge of a strip stays, and so do the indices of the
cards. -/
theorem recalls_of_calls (detector : Detector) (origin : Plane → StripPlane.Origin α)
    (calls : List (Call α)) :
    (calls.foldl respond (build detector (origin .x).plane (origin .y).plane)).Recalls origin
      calls ∧
    (calls.foldl respond (standard detector)).Recalls .standard calls := by
  have hstandard : (standard detector : Chamber α).Faithful .standard [] :=
    (faithful_build detector .standard).connectAll _
  exact ⟨((faithful_build detector origin).run calls).recalls, (hstandard.run calls).recalls⟩

end ShowerTrack.Chamber
