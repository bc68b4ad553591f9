import ShowerTrack.Proofs.Filling

/-!
# First hits

What a plane holds can be read off the calls that were made to it. The strips that have fired are
those with a hit and no other mark is set, and the hit of a strip comes from the first charge that
was offered to it since the plane was last cleared.
-/

set_option autoImplicit false

namespace ShowerTrack.StripPlane

variable {α : Type}

structure Offer (α : Type) where
  strip : Int
  charge : α
  crossTalk : Bool

inductive Call (α : Type) where
  | add (o : Offer α)
  | cluster (s : TrackerSettings α)
  | clear

def Call.extend (os : List (Offer α)) : Call α → List (Offer α)
  | add o => os ++ [o]
  | cluster _ => os
  | clear => []

/-- The charges that were offered since the last clearing. -/
def offered (calls : List (Call α)) : List (Offer α) := calls.foldl Call.extend []

theorem offered_concat (calls : List (Call α)) (call : Call α) :
    offered (calls ++ [call]) = call.extend (offered calls) := by
  rw [offered, List.foldl_append]
  rfl

variable [Scalar α]

def respond (p : StripPlane α) : Call α → StripPlane α
  | .add o => (p.add o.strip o.charge o.crossTalk).1
  | .cluster s => p.cluster s
  | .clear => p.clear

theorem add_snd (p : StripPlane α) (strip : Int) (charge : α) (crossTalk : Bool) :
    (p.add strip charge crossTalk).2 = p.judge strip := by
  unfold add
  split
  · rename_i htaken
    exact htaken.symm
  · rfl

def hitFrom (p : StripPlane α) (o : Offer α) : StripHit α :=
  ⟨o.strip, o.charge, p.stripPosition o.strip, o.crossTalk⟩

/-- A consistent plane with marks on strips that it reads only, and a hit from the first offer to
each of them. -/
structure Faithful (p : StripPlane α) (calls : List (Call α)) : Prop extends p.Consistent where
  unmarked : ∀ i : Nat, p.fired.getD i false = true → p.Reads i
  first : ∀ strip, p.Reads strip → p.hits.find? (·.strip == strip) =
    ((offered calls).find? (·.strip == strip)).map p.hitFrom

theorem getD_replicate_false (n i : Nat) : (Array.replicate n false).getD i false = false := by
  rw [Array.getD_eq_getD_getElem?, Array.getElem?_replicate]
  split <;> rfl

theorem faithful_clear (p : StripPlane α) {calls : List (Call α)} (h : offered calls = []) :
    p.clear.Faithful calls where
  toConsistent := consistent_clear p
  unmarked i hi := by
    change (Array.replicate p.strips false).getD i false = true at hi
    rw [getD_replicate_false] at hi
    cases hi
  first strip _ := by
    rw [h]
    rfl

theorem faithful_build (kind : Plane) (size pitch orient : α) (strips : Nat) :
    (build kind size pitch orient strips).Faithful [] :=
  faithful_clear (build kind size pitch orient strips) rfl

namespace Faithful

variable {p : StripPlane α} {calls : List (Call α)} (h : p.Faithful calls)

include h

theorem cluster (s : TrackerSettings α) : (p.cluster s).Faithful (calls ++ [.cluster s]) where
  toConsistent := ⟨h.size, h.reads, h.fired, h.nodup⟩
  unmarked := h.unmarked
  first strip hreads := by
    rw [offered_concat]
    exact h.first strip hreads

/-- Cards and clusters are no concern of the hits. -/
theorem dress (cards : List Nat) (clusters : List (StripCluster α)) :
    Faithful { p with cards, clusters } calls :=
  ⟨⟨h.size, h.reads, h.fired, h.nodup⟩, h.unmarked, h.first⟩

theorem unmarked_add (o : Offer α) (i : Nat)
    (hi : (p.add o.strip o.charge o.crossTalk).1.fired.getD i false = true) : p.Reads i := by
  rw [add_fst] at hi
  by_cases htaken : p.judge o.strip = .taken
  · have hstrip : p.Reads o.strip := (judge_eq_taken.mp htaken).1
    rw [if_pos htaken, fire, Array.getD_eq_getD_getElem?, Array.getElem?_setIfInBounds] at hi
    by_cases hsame : o.strip.toNat = i
    · have hnonneg : 0 ≤ o.strip := hstrip.2.1
      rwa [show (i : Int) = o.strip by omega]
    · rw [if_neg hsame, ← Array.getD_eq_getD_getElem?] at hi
      exact h.unmarked i hi
  · rw [if_neg htaken] at hi
    exact h.unmarked i hi

theorem add (o : Offer α) :
    (p.add o.strip o.charge o.crossTalk).1.Faithful (calls ++ [.add o]) where
  toConsistent := h.toConsistent.add o.strip o.charge o.crossTalk
  unmarked i hi := (p.reads_add _ _ _ _).mpr (h.unmarked_add o i hi)
  first strip hreads := by
    have hread := (p.reads_add _ _ _ strip).mp hreads
    have hhit : (p.add o.strip o.charge o.crossTalk).1.hitFrom = p.hitFrom := by
      funext other
      rw [hitFrom, stripPosition_add, hitFrom]
    rw [find?_hits_add h.toConsistent _ _ _ hread, h.first strip hread, offered_concat, hhit,
      Call.extend, List.find?_append, Option.map_or, List.find?_singleton]
    congr 1
    by_cases hsame : o.strip = strip
    · subst hsame
      simp [hitFrom]
    · simp [hsame]

theorem respond (call : Call α) : (p.respond call).Faithful (calls ++ [call]) := by
  cases call with
  | add o => exact h.add o
  | cluster s => exact h.cluster s
  | clear => exact faithful_clear p (offered_concat calls .clear)

theorem run (more : List (Call α)) :
    (more.foldl StripPlane.respond p).Faithful (calls ++ more) := by
  induction more generalizing p calls with
  | nil => rwa [List.append_nil]
  | cons call more ih =>
    rw [List.append_cons]
    exact ih (h.respond call)

/-- A mark is set just where there is a hit. -/
theorem marked_iff (i : Nat) :
    p.fired.getD i false = true ↔ (i : Int) ∈ p.hits.map (·.strip) := by
  constructor
  · intro hi
    exact (h.fired i (h.unmarked i hi)).mp hi
  · intro hi
    obtain ⟨hit, hhit, hstrip⟩ := List.mem_map.mp hi
    exact (h.fired i (hstrip ▸ h.reads hit hhit)).mpr hi

/-- Every hit was offered. -/
theorem exists_offer : ∀ hit ∈ p.hits, ∃ o ∈ offered calls, hit = p.hitFrom o := by
  intro hit hhit
  obtain ⟨hread, hfind⟩ := (mem_hits_iff h.toConsistent hit).mp hhit
  rw [h.first hit.strip hread, Option.map_eq_some_iff] at hfind
  obtain ⟨o, ho, hfrom⟩ := hfind
  exact ⟨o, List.mem_of_find?_eq_some ho, hfrom.symm⟩

end Faithful

/-- How a plane was built, and the calls to it before it came into a chamber. -/
structure Origin (α : Type) where
  kind : Plane
  size : α
  pitch : α
  orient : α
  strips : Nat
  calls : List (Call α)

namespace Origin

def plane (o : Origin α) : StripPlane α :=
  o.calls.foldl respond (build o.kind o.size o.pitch o.orient o.strips)

def standard (kind : Plane) : Origin α :=
  ⟨kind, sizeOf kind, 0.4, 1, cardsOf kind * channelsPerCard, []⟩

end Origin

def IsFrom (p : StripPlane α) (o : Origin α) : Prop :=
  p.kind = o.kind ∧ p.size = o.size ∧ p.pitch = o.pitch ∧ p.orient = o.orient ∧
    p.strips = o.strips

theorem IsFrom.respond {p : StripPlane α} {o : Origin α} (h : p.IsFrom o) (call : Call α) :
    (p.respond call).IsFrom o := by
  cases call with
  | add offer =>
    rw [StripPlane.respond, add_fst]
    split
    · exact h
    · exact h
  | cluster s => exact h
  | clear => exact h

theorem cards_respond (p : StripPlane α) (call : Call α) : (p.respond call).cards = p.cards := by
  cases call with
  | add offer =>
    rw [StripPlane.respond, add_fst]
    split
    · rfl
    · rfl
  | cluster s => rfl
  | clear => rfl

theorem IsFrom.run {p : StripPlane α} {o : Origin α} (h : p.IsFrom o) (calls : List (Call α)) :
    (calls.foldl StripPlane.respond p).IsFrom o := by
  induction calls generalizing p with
  | nil => exact h
  | cons call calls ih => exact ih (h.respond call)

/-- What a plane knows of the calls that were made to it since it came into a chamber. -/
structure Recalls (p : StripPlane α) (o : Origin α) (calls : List (Call α)) : Prop where
  built : p.IsFrom o
  marks : p.fired.size = p.strips
  marked : ∀ i : Nat, p.fired.getD i false = true ↔ (i : Int) ∈ p.hits.map (·.strip)
  distinct : (p.hits.map (·.strip)).Nodup
  inside : ∀ hit ∈ p.hits, 0 ≤ hit.strip ∧ hit.strip < p.strips ∧
    (p.kind = .x → firstReadStrip ≤ hit.strip ∧ hit.strip ≤ lastReadStrip)
  first : ∀ strip, p.Reads strip → p.hits.find? (·.strip == strip) =
    ((offered (o.calls ++ calls)).find? (·.strip == strip)).map p.hitFrom

theorem Faithful.recalls {p : StripPlane α} {o : Origin α} {calls : List (Call α)}
    (h : p.Faithful (o.calls ++ calls)) (hbuilt : p.IsFrom o) : p.Recalls o calls where
  built := hbuilt
  marks := h.size
  marked := h.marked_iff
  distinct := h.nodup
  inside hit hhit := by
    obtain ⟨hread, hnonneg, hbelow⟩ := h.reads hit hhit
    refine ⟨hnonneg, hbelow, ?_⟩
    intro hx
    simpa [isGuard, hx] using hread
  first := h.first

theorem Origin.faithful_plane (o : Origin α) : o.plane.Faithful o.calls :=
  (faithful_build o.kind o.size o.pitch o.orient o.strips).run o.calls

/-- No card reads a plane before it comes into a chamber. -/
theorem Origin.cards_plane (o : Origin α) : o.plane.cards = [] := by
  suffices h : ∀ p : StripPlane α, (o.calls.foldl respond p).cards = p.cards from h _
  induction o.calls with
  | nil => exact fun _ => rfl
  | cons call calls ih => exact fun p => (ih _).trans (p.cards_respond call)

theorem Origin.isFrom_plane (o : Origin α) : o.plane.IsFrom o :=
  IsFrom.run ⟨rfl, rfl, rfl, rfl, rfl⟩ o.calls

end ShowerTrack.StripPlane
