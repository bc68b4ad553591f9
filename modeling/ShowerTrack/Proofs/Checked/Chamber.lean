import ShowerTrack.Proofs.Checked.Strips
import ShowerTrack.Proofs.Filling

/-!
# Checked chambers

A chamber keeps its planes in a table and a card names its plane by the position there. A plane
marks a strip that it reads, and it has a mark for every strip. Both planes are small, so that the
number of crossings fits into a word.
-/

set_option autoImplicit false

namespace ShowerTrack

variable {α : Type}

structure StripPlane.Sound (p : StripPlane α) : Prop extends p.Consistent where
  few : (p.strips : Int) ≤ Int32.maxValue.toInt

def Chamber.Sound (c : Chamber α) : Prop := c.xPlane.Sound ∧ c.yPlane.Sound

theorem StripPlane.Consistent.length_hits_le {p : StripPlane α} (h : p.Consistent) :
    p.hits.length ≤ p.strips := by
  have hsubset : p.hits.map (·.strip) ⊆ (List.range p.strips).map Int.ofNat := by
    intro strip hstrip
    obtain ⟨hit, hh, rfl⟩ := List.mem_map.mp hstrip
    obtain ⟨_, hnonneg, hbelow⟩ := h.reads hit hh
    exact List.mem_map.mpr ⟨hit.strip.toNat, List.mem_range.mpr (by omega), by simp [hnonneg]⟩
  simpa using (List.subperm_of_subset h.nodup hsubset).length_le

namespace StripPlane.Sound

variable {p : StripPlane α} (h : p.Sound)

include h

theorem withCards (cards : List Nat) : StripPlane.Sound { p with cards } :=
  ⟨⟨h.size, h.reads, h.fired, h.nodup⟩, h.few⟩

theorem clear : p.clear.Sound := ⟨StripPlane.consistent_clear p, h.few⟩

variable [Scalar α]

theorem cluster (s : TrackerSettings α) : (p.cluster s).Sound :=
  ⟨⟨h.size, h.reads, h.fired, h.nodup⟩, h.few⟩

theorem add (strip : Int) (charge : α) (crossTalk : Bool) :
    (p.add strip charge crossTalk).1.Sound := by
  refine ⟨h.toConsistent.add strip charge crossTalk, ?_⟩
  rw [StripPlane.add_fst]
  split
  · exact h.few
  · exact h.few

end StripPlane.Sound

theorem StripPlane.sound_standard [Scalar α] (kind : Plane) :
    (StripPlane.standard kind : StripPlane α).Sound := by
  refine ⟨StripPlane.consistent_clear (.standard kind), ?_⟩
  cases kind with
  | x => exact (by decide : ((cardsOf .x * channelsPerCard : Nat) : Int) ≤ Int32.maxValue.toInt)
  | y => exact (by decide : ((cardsOf .y * channelsPerCard : Nat) : Int) ≤ Int32.maxValue.toInt)

theorem Chamber.detector_connectAll (c : Chamber α) (cards : List Card) :
    (c.connectAll cards).detector = c.detector := by
  induction cards generalizing c with
  | nil => rfl
  | cons card cards ih =>
    have hconnect : (c.connect card.plane card.slot).1.detector = c.detector := by
      rw [Chamber.connect]
      split
      · rfl
      · cases card.plane <;> rfl
    exact (ih _).trans hconnect

namespace Chamber.Sound

variable {c : Chamber α} (h : c.Sound)

include h

theorem plane (kind : Plane) : (c.plane kind).Sound := by
  cases kind with
  | x => exact h.1
  | y => exact h.2

theorem withPlane (kind : Plane) {p : StripPlane α} (hp : p.Sound) :
    (c.withPlane kind p).Sound := by
  cases kind with
  | x => exact ⟨hp, h.2⟩
  | y => exact ⟨h.1, hp⟩

theorem clear : c.clear.Sound := ⟨h.1.clear, h.2.clear⟩

theorem connect (kind : Plane) (slot : Nat) : (c.connect kind slot).1.Sound := by
  rw [Chamber.connect]
  split
  · exact h
  · exact h.withPlane kind ((h.plane kind).withCards _)

theorem connectAll (cards : List Card) : (c.connectAll cards).Sound := by
  induction cards generalizing c with
  | nil => exact h
  | cons card cards ih => exact ih (h.connect card.plane card.slot)

variable [Scalar α]

theorem add (kind : Plane) (strip : Int) (charge : α) : (c.add kind strip charge).1.Sound :=
  h.withPlane kind ((h.plane kind).add strip charge false)

theorem reconstruct (s : TrackerSettings α) : (c.reconstruct s).Sound := by
  rw [Chamber.reconstruct]
  split
  · exact h
  · exact ⟨h.1.cluster s, h.2.cluster s⟩

/-- The crossings of the clusters of both planes fit into a word. -/
theorem room (s : TrackerSettings α) :
    (formClusters s c.xPlane.hits).length * (formClusters s c.yPlane.hits).length <
      UInt64.size := by
  have hbound : ∀ p : StripPlane α, p.Sound →
      (formClusters s p.hits).length ≤ Int32.maxValue.toInt.toNat := by
    intro p hp
    have hclusters := Checked.length_formClusters s p.hits
    have hhits := hp.length_hits_le
    have hfew := hp.few
    omega
  exact (Nat.mul_le_mul (hbound _ h.1) (hbound _ h.2)).trans_lt (by decide)

end Chamber.Sound

theorem Chamber.sound_standard [Scalar α] (detector : Detector) :
    (Chamber.standard detector : Chamber α).Sound := by
  have hbuild : (Chamber.build detector (.standard .x) (.standard .y) : Chamber α).Sound :=
    ⟨StripPlane.sound_standard .x, StripPlane.sound_standard .y⟩
  exact hbuild.connectAll _

theorem Chamber.detector_standard [Scalar α] (detector : Detector) :
    (Chamber.standard detector : Chamber α).detector = detector :=
  Chamber.detector_connectAll _ _

namespace Checked

section Planes

theorem small_of_sound {p : StripPlane α} (h : p.Sound) : ∀ hit ∈ p.hits, Small hit.strip := by
  intro hit hh
  obtain ⟨_, hnonneg, hbelow⟩ := h.reads hit hh
  exact ⟨hnonneg, hbelow.le.trans h.few⟩

def clearPlane (p : StripPlane α) : StripPlane α :=
  { p with fired := p.fired.map fun _ => false, hits := [], clusters := [] }

theorem clearPlane_eq {p : StripPlane α} (h : p.Sound) : clearPlane p = p.clear := by
  rw [clearPlane, StripPlane.clear, ← h.size]
  congr 1
  exact Array.map_const'

variable [Scalar α]

def addStrip (p : StripPlane α) (strip : Int) (charge : α) (crossTalk : Bool) :
    Option (StripPlane α × Acceptance) :=
  if p.isGuard strip then some (p, .guarded)
  else if strip < 0 || (p.strips : Int) ≤ strip then some (p, .outside)
  else do
    let fired ← p.fired[strip.toNat]?
    if fired then some (p, .repeated)
    else
      let marks ← put p.fired strip.toNat true
      some ({ p with
        fired := marks
        hits := p.hits ++ [⟨strip, charge, p.stripPosition strip, crossTalk⟩] }, .taken)

def clusterPlane (s : TrackerSettings α) (p : StripPlane α) : Option (StripPlane α) := do
  let clusters ← formClusters s p.hits
  some { p with clusters }

theorem addStrip_eq {p : StripPlane α} (h : p.Sound) (strip : Int) (charge : α) (crossTalk : Bool) :
    addStrip p strip charge crossTalk = some (p.add strip charge crossTalk) := by
  rw [addStrip, StripPlane.add, StripPlane.judge]
  by_cases hguard : p.isGuard strip = true
  · rw [if_pos hguard, if_pos hguard]
  · rw [if_neg hguard, if_neg hguard]
    by_cases houtside : (decide (strip < 0) || decide ((p.strips : Int) ≤ strip)) = true
    · rw [if_pos houtside, if_pos houtside]
    · rw [if_neg houtside, if_neg houtside]
      have hinside : strip.toNat < p.fired.size := by
        rw [h.size]
        simp only [Bool.or_eq_true, decide_eq_true_eq] at houtside
        omega
      have hread : p.fired[strip.toNat]? = some (p.hasFired strip) := by
        simp [StripPlane.hasFired, hinside]
      rw [hread, Option.bind_eq_bind, Option.bind_some, put_eq hinside]
      by_cases hfired : p.hasFired strip = true
      · rw [if_pos hfired, if_pos hfired]
      · rw [if_neg hfired, if_neg hfired]
        rfl

theorem clusterPlane_eq {p : StripPlane α} (h : p.Sound) (s : TrackerSettings α) :
    clusterPlane s p = some (p.cluster s) := by
  rw [clusterPlane, formClusters_eq s (small_of_sound h)]
  rfl

end Planes

/-- A chamber with its planes in a table. A card is the number of its plane and its slot. -/
structure Station (α : Type) where
  detector : Detector
  planes : Array (StripPlane α)
  cards : List (Nat × Nat)
  hits : List (TrackerHit α)
  overflow : Nat

namespace Station

def ofChamber (c : Chamber α) : Station α :=
  { detector := c.detector
    planes := #[c.xPlane, c.yPlane]
    cards := c.cards.map fun card => (card.plane.index, card.slot)
    hits := c.hits
    overflow := c.overflow }

def clear (t : Station α) : Station α :=
  { t with planes := t.planes.map clearPlane, hits := [], overflow := 0 }

def connect (t : Station α) (card : Card) : Option (Station α) :=
  match t.cards.findIdx? (· == (card.plane.index, card.slot)) with
  | some _ => some t
  | none => do
    let planes ← edit t.planes card.plane.index fun p =>
      some { p with cards := p.cards ++ [t.cards.length] }
    some { t with planes, cards := t.cards ++ [(card.plane.index, card.slot)] }

theorem clear_ofChamber {c : Chamber α} (h : c.Sound) :
    (ofChamber c).clear = ofChamber c.clear := by
  simp [ofChamber, clear, Chamber.clear, clearPlane_eq h.1, clearPlane_eq h.2]

theorem connect_ofChamber (c : Chamber α) (card : Card) :
    connect (ofChamber c) card = some (ofChamber (c.connect card.plane card.slot).1) := by
  have hsearch : (ofChamber c).cards.findIdx? (· == (card.plane.index, card.slot)) =
      c.cards.findIdx? (· == card) := by
    rw [ofChamber, List.findIdx?_map]
    congr 1
    funext other
    obtain ⟨plane, slot⟩ := card
    obtain ⟨other, slot'⟩ := other
    cases plane <;> cases other <;> simp [Plane.index]
  rw [connect, hsearch, Chamber.connect]
  cases c.cards.findIdx? (· == card) with
  | some i => rfl
  | none =>
    obtain ⟨plane, slot⟩ := card
    cases plane <;> simp [ofChamber, edit, Chamber.withPlane, Chamber.plane, Plane.index]

theorem foldlM_connect (cards : List Card) (c : Chamber α) :
    cards.foldlM connect (ofChamber c) = some (ofChamber (c.connectAll cards)) := by
  induction cards generalizing c with
  | nil => rfl
  | cons card cards ih =>
    rw [List.foldlM_cons, connect_ofChamber, Option.bind_eq_bind, Option.bind_some, ih]
    rfl

variable [Scalar α]

def standard (detector : Detector) : Option (Station α) :=
  (Plane.all.flatMap fun kind => (List.range (StripPlane.cardsOf kind)).map (⟨kind, ·⟩)).foldlM
    connect ⟨detector, #[.standard .x, .standard .y], [], [], 0⟩

def add (t : Station α) (kind : Plane) (strip : Int) (charge : α) :
    Option (Station α × Acceptance) := do
  let p ← t.planes[kind.index]?
  let (p, acceptance) ← addStrip p strip charge false
  let planes ← put t.planes kind.index p
  some ({ t with planes }, acceptance)

def reconstruct (t : Station α) (s : TrackerSettings α) : Option (Station α) :=
  if t.planes.any (·.cards.isEmpty) then some { t with hits := [], overflow := 0 }
  else do
    let planes ← t.planes.toList.mapM (clusterPlane s)
    let x ← planes[Plane.x.index]?
    let y ← planes[Plane.y.index]?
    let (hits, overflow) ← crossings t.detector x.clusters y.clusters
    some { t with planes := planes.toArray, hits, overflow }

theorem standard_eq (detector : Detector) :
    standard detector = some (ofChamber (.standard detector : Chamber α)) :=
  foldlM_connect _ (.build detector (.standard .x) (.standard .y))

theorem add_ofChamber {c : Chamber α} (h : c.Sound) (kind : Plane) (strip : Int) (charge : α) :
    (ofChamber c).add kind strip charge =
      some (ofChamber (c.add kind strip charge).1, (c.add kind strip charge).2) := by
  have hread : (ofChamber c).planes[kind.index]? = some (c.plane kind) := by cases kind <;> rfl
  have hbound : kind.index < (ofChamber c).planes.size := by
    cases kind with
    | x => exact Nat.two_pos
    | y => exact Nat.one_lt_two
  rw [add, hread]
  simp only [Option.bind_eq_bind, Option.bind_some, addStrip_eq (h.plane kind), put_eq hbound]
  cases kind <;> rfl

theorem reconstruct_ofChamber {c : Chamber α} (h : c.Sound) (s : TrackerSettings α) :
    (ofChamber c).reconstruct s = some (ofChamber (c.reconstruct s)) := by
  have hunread : (ofChamber c).planes.any (·.cards.isEmpty) = c.unread?.isSome := by
    rw [Chamber.unread?, Bool.eq_iff_iff, List.find?_isSome]
    simp [ofChamber, Plane.all, Chamber.plane]
  rw [reconstruct, hunread, Chamber.reconstruct]
  cases c.unread? with
  | some plane => rfl
  | none =>
    have hplanes : (ofChamber c).planes.toList.mapM (clusterPlane s) =
        some [c.xPlane.cluster s, c.yPlane.cluster s] := by
      simp [ofChamber, clusterPlane_eq h.1, clusterPlane_eq h.2]
    have hcrossings := crossings_eq c.detector (h.room s)
    rw [if_neg (by simp), hplanes]
    simp [Plane.index, StripPlane.cluster, hcrossings, ofChamber]

end Station

end Checked

end ShowerTrack
