import ShowerTrack.Proofs.Clearing
import ShowerTrack.Proofs.Keyed

/-!
# Filling the detectors

A block sums the positive energies that it is given, unless it is dead. A plane keeps the first
charge of every strip that it reads. What the detectors hold after an event is said here for each
block and each strip alone, whatever stands between their records.
-/

set_option autoImplicit false

namespace ShowerTrack

variable {α : Type}

namespace Calorimeter

theorem block_of_indexIn {id : Int} {cs : List (Channel α)} {i : Nat}
    (h : indexIn id cs = some i) : ∃ c, cs[i]? = some c ∧ c.block.id = id := by
  induction cs generalizing i with
  | nil => simp [indexIn] at h
  | cons c cs ih =>
    rw [indexIn] at h
    split at h
    · rename_i j hj
      obtain rfl := Option.some.inj h
      exact ih hj
    · split at h
      · rename_i hid
        obtain rfl := Option.some.inj h
        exact ⟨c, rfl, hid⟩
      · cases h

theorem indexIn_congr (id : Int) {cs ds : List (Channel α)}
    (h : cs.map (·.block.id) = ds.map (·.block.id)) : indexIn id cs = indexIn id ds := by
  induction cs generalizing ds with
  | nil =>
    obtain rfl : ds = [] := List.map_eq_nil_iff.mp h.symm
    rfl
  | cons c cs ih =>
    cases ds with
    | nil => simp at h
    | cons d ds =>
      rw [List.map_cons, List.map_cons, List.cons.injEq] at h
      rw [indexIn, indexIn, ih h.2, h.1]

theorem block_of_index? {d : Calorimeter α} {id : Int} {i : Nat} (h : d.index? id = some i) :
    ∃ c, d.channels[i]? = some c ∧ c.block.id = id :=
  block_of_indexIn h

theorem getElem?_modify (d : Calorimeter α) (i : Nat) (f : Channel α → Channel α) (j : Nat) :
    (d.modify i f).channels[j]? = (d.channels[j]?).map fun c => if i = j then f c else c := by
  rw [modify, List.getElem?_modify]
  split
  · rfl
  · simp

variable [Scalar α]

theorem index?_of_clear_eq {d e : Calorimeter α} (h : d.clear = e.clear) (id : Int) :
    d.index? id = e.index? id := by
  have hchannels : d.clear.channels = e.clear.channels := by rw [h]
  have hids := congrArg (List.map (·.block.id)) hchannels
  simp only [clear, List.map_map] at hids
  exact indexIn_congr id hids

theorem index?_addEnergy (d : Calorimeter α) (id other : Int) (energy : α) :
    (d.addEnergy id energy).1.index? other = d.index? other :=
  index?_of_clear_eq (d.clear_addEnergy id energy) other

def counts (d : Calorimeter α) (j : Nat) (b : BlockEnergy α) : Bool :=
  d.index? b.id == some j && 0 < b.energy

def received (d : Calorimeter α) (bs : List (BlockEnergy α)) (j : Nat) : List α :=
  (bs.filter (d.counts j)).map (·.energy)

def gain (c : Channel α) (energies : List α) : Channel α :=
  if c.dead then c else { c with energy := energies.foldl (· + ·) c.energy }

theorem gain_nil (c : Channel α) : gain c [] = c := by
  unfold gain
  split
  · rfl
  · rfl

theorem gain_append (c : Channel α) (xs ys : List α) :
    gain c (xs ++ ys) = gain (gain c xs) ys := by
  by_cases hdead : c.dead
  · simp [gain, hdead]
  · simp [gain, hdead, List.foldl_append]

/-- An energy changes the channel of its block, if it is positive and the block is live. -/
theorem getElem?_addEnergy (d : Calorimeter α) (b : BlockEnergy α) (j : Nat) :
    (d.addEnergy b.id b.energy).1.channels[j]? =
      (d.channels[j]?).map fun c => gain c (d.received [b] j) := by
  have hsame : d.counts j b = false →
      d.channels[j]? = (d.channels[j]?).map fun c => gain c (d.received [b] j) := by
    intro hcounts
    simp [received, hcounts, gain_nil]
  unfold addEnergy
  split
  · rename_i hindex
    exact hsame (by simp [counts, hindex])
  · rename_i i hindex
    obtain ⟨c, hc, -⟩ := block_of_index? hindex
    rw [hc, Option.map_some, Option.getD_some]
    by_cases hij : i = j
    · subst hij
      rw [hc, Option.map_some]
      by_cases hdead : c.dead
      · rw [if_pos hdead, hc, gain, if_pos hdead]
      · by_cases hpos : 0 < b.energy
        · rw [if_neg hdead, if_pos hpos, getElem?_modify, hc, Option.map_some, if_pos rfl]
          simp [gain, hdead, received, counts, hindex, hpos]
        · rw [if_neg hdead, if_neg hpos, hc]
          simp [received, counts, hpos, gain_nil]
    · have hother := hsame (by simp [counts, hindex, hij])
      split
      · exact hother
      · split
        · rw [getElem?_modify]
          simpa only [hij, if_false, Option.map_id'] using hother
        · exact hother

def addAll (d : Calorimeter α) (bs : List (BlockEnergy α)) : Calorimeter α :=
  bs.foldl (fun d b => (d.addEnergy b.id b.energy).1) d

theorem getElem?_addAll (d : Calorimeter α) (bs : List (BlockEnergy α)) (j : Nat) :
    (d.addAll bs).channels[j]? = (d.channels[j]?).map fun c => gain c (d.received bs j) := by
  induction bs generalizing d with
  | nil =>
    have hnil : d.received [] j = [] := rfl
    simp [addAll, hnil, gain_nil]
  | cons b bs ih =>
    have hstep : d.addAll (b :: bs) = (d.addEnergy b.id b.energy).1.addAll bs := rfl
    have hreceived : (d.addEnergy b.id b.energy).1.received bs j = d.received bs j := by
      have hcounts : (d.addEnergy b.id b.energy).1.counts j = d.counts j := by
        funext other
        rw [counts, index?_addEnergy, counts]
      rw [received, hcounts, received]
    have hcons : d.received (b :: bs) j = d.received [b] j ++ d.received bs j := by
      rw [received, ← List.singleton_append, List.filter_append, List.map_append]
      rfl
    rw [hstep, ih, getElem?_addEnergy, hreceived, hcons, Option.map_map]
    congr 1
    funext c
    exact (gain_append c _ _).symm

theorem addEnergy_rest (d : Calorimeter α) (id : Int) (energy : α) :
    (d.addEnergy id energy).1 = { d with channels := (d.addEnergy id energy).1.channels } := by
  unfold addEnergy
  split
  · rfl
  · split
    · rfl
    · split
      · rfl
      · rfl

theorem addAll_rest (d : Calorimeter α) (bs : List (BlockEnergy α)) :
    d.addAll bs = { d with channels := (d.addAll bs).channels } := by
  induction bs generalizing d with
  | nil => rfl
  | cons b bs ih =>
    have hstep : d.addAll (b :: bs) = (d.addEnergy b.id b.energy).1.addAll bs := rfl
    rw [hstep, ih, addEnergy_rest]

/-- Lists that give every live channel the same energies fill a calorimeter alike. -/
theorem addAll_congr {d : Calorimeter α} {bs cs : List (BlockEnergy α)}
    (h : ∀ (j : Nat) (c : Channel α), d.channels[j]? = some c → c.dead = false →
      d.received bs j = d.received cs j) : d.addAll bs = d.addAll cs := by
  have hchannels : (d.addAll bs).channels = (d.addAll cs).channels := by
    apply List.ext_getElem?
    intro j
    rw [getElem?_addAll, getElem?_addAll]
    apply Option.map_congr
    intro c hc
    cases hdead : c.dead with
    | true => simp [gain, hdead]
    | false => rw [h j c hc hdead]
  rw [addAll_rest, addAll_rest d cs, hchannels]

end Calorimeter

namespace StripPlane

def Reads (p : StripPlane α) (strip : Int) : Prop :=
  p.isGuard strip = false ∧ 0 ≤ strip ∧ strip < p.strips

/-- The strips that have fired are those with a hit, and each has one. -/
structure Consistent (p : StripPlane α) : Prop where
  size : p.fired.size = p.strips
  reads : ∀ h ∈ p.hits, p.Reads h.strip
  fired : ∀ strip, p.Reads strip → (p.hasFired strip = true ↔ strip ∈ p.hits.map (·.strip))
  nodup : (p.hits.map (·.strip)).Nodup

theorem consistent_clear (p : StripPlane α) : p.clear.Consistent where
  size := by simp [clear]
  reads := by simp [clear]
  fired strip _ := by
    simp only [hasFired, clear, List.map_nil, List.not_mem_nil, iff_false,
      Array.getD_eq_getD_getElem?, Array.getElem?_replicate]
    split <;> simp
  nodup := by simp [clear]

theorem judge_eq_taken {p : StripPlane α} {strip : Int} :
    p.judge strip = .taken ↔ p.Reads strip ∧ p.hasFired strip = false := by
  unfold judge Reads
  split
  · rename_i hguard
    simp [hguard]
  · rename_i hguard
    split
    · rename_i houtside
      simp only [Bool.or_eq_true, decide_eq_true_eq] at houtside
      simp only [reduceCtorEq, false_iff]
      omega
    · rename_i hinside
      simp only [Bool.or_eq_true, decide_eq_true_eq, not_or] at hinside
      have hreads : p.isGuard strip = false ∧ 0 ≤ strip ∧ strip < p.strips :=
        ⟨by simpa using hguard, by omega, by omega⟩
      split
      · rename_i hfired
        simp [hfired]
      · rename_i hfired
        simp [hreads, hfired]

theorem find?_strip_eq_none {hits : List (StripHit α)} {strip : Int} :
    hits.find? (·.strip == strip) = none ↔ strip ∉ hits.map (·.strip) := by
  simp [List.find?_eq_none]

theorem mem_hits_iff {p : StripPlane α} (h : p.Consistent) (hit : StripHit α) :
    hit ∈ p.hits ↔ p.Reads hit.strip ∧ p.hits.find? (·.strip == hit.strip) = some hit := by
  constructor
  · intro hhit
    refine ⟨h.reads hit hhit, ?_⟩
    obtain ⟨front, back, hsplit, hfront, -⟩ := exists_split_at_key h.nodup hhit
    rw [hsplit, List.find?_append]
    have hnone : front.find? (·.strip == hit.strip) = none := by
      rw [List.find?_eq_none]
      intro other hother
      simpa using hfront other hother
    simp [hnone]
  · rintro ⟨-, hfind⟩
    exact List.mem_of_find?_eq_some hfind

variable [Scalar α]

theorem add_fst (p : StripPlane α) (strip : Int) (charge : α) (crossTalk : Bool) :
    (p.add strip charge crossTalk).1 =
      if p.judge strip = .taken then p.fire strip charge crossTalk else p := by
  unfold add
  split
  · rename_i htaken
    rw [if_pos htaken]
  · rename_i hrefused
    rw [if_neg hrefused]

theorem reads_add (p : StripPlane α) (strip : Int) (charge : α) (crossTalk : Bool) (other : Int) :
    (p.add strip charge crossTalk).1.Reads other ↔ p.Reads other := by
  rw [add_fst]
  split
  · rfl
  · rfl

theorem stripPosition_add (p : StripPlane α) (strip : Int) (charge : α) (crossTalk : Bool)
    (other : Int) :
    (p.add strip charge crossTalk).1.stripPosition other = p.stripPosition other := by
  rw [add_fst]
  split
  · rfl
  · rfl

theorem hasFired_fire {p : StripPlane α} (hsize : p.fired.size = p.strips) {strip other : Int}
    (hstrip : p.Reads strip) (hother : p.Reads other) (charge : α) (crossTalk : Bool) :
    (p.fire strip charge crossTalk).hasFired other =
      (decide (other = strip) || p.hasFired other) := by
  obtain ⟨-, hlow, hhigh⟩ := hstrip
  obtain ⟨-, hlow', -⟩ := hother
  have hsame : strip.toNat = other.toNat ↔ other = strip := by omega
  have hbound : strip.toNat < p.fired.size := by omega
  simp only [hasFired, fire, Array.getD_eq_getD_getElem?, Array.getElem?_setIfInBounds]
  by_cases heq : other = strip
  · subst heq
    simp [hbound]
  · rw [if_neg (mt hsame.mp heq)]
    simp [heq]

theorem Consistent.add {p : StripPlane α} (h : p.Consistent) (strip : Int) (charge : α)
    (crossTalk : Bool) : (p.add strip charge crossTalk).1.Consistent := by
  rw [add_fst]
  split
  · rename_i htaken
    obtain ⟨hreads, hfresh⟩ := judge_eq_taken.mp htaken
    have hnew : strip ∉ p.hits.map (·.strip) := by
      rw [← h.fired strip hreads, hfresh]
      simp
    constructor
    · simpa [fire] using h.size
    · intro hit hhit
      rcases List.mem_append.mp hhit with hold | hlast
      · exact h.reads hit hold
      · obtain rfl := List.mem_singleton.mp hlast
        exact hreads
    · intro other hother
      rw [hasFired_fire h.size hreads hother, Bool.or_eq_true, decide_eq_true_eq,
        h.fired other hother]
      simp [fire, or_comm]
    · rw [fire, List.map_append, List.map_singleton, List.nodup_append]
      refine ⟨h.nodup, List.nodup_singleton _, ?_⟩
      intro a ha b hb hab
      obtain rfl := List.mem_singleton.mp hb
      exact hnew (hab ▸ ha)
  · exact h

def addAll (p : StripPlane α) (offers : List (Int × α)) : StripPlane α :=
  offers.foldl (fun p o => (p.add o.1 o.2 false).1) p

theorem Consistent.addAll {p : StripPlane α} (h : p.Consistent) (offers : List (Int × α)) :
    (p.addAll offers).Consistent := by
  induction offers generalizing p with
  | nil => exact h
  | cons o offers ih => exact ih (h.add o.1 o.2 false)

/-- A charge becomes the hit of its strip if the strip is read and has none. -/
theorem find?_hits_add {p : StripPlane α} (h : p.Consistent) (other : Int) (charge : α)
    (crossTalk : Bool) {strip : Int} (hreads : p.Reads strip) :
    (p.add other charge crossTalk).1.hits.find? (·.strip == strip) =
      (p.hits.find? (·.strip == strip)).or
        (if other == strip then
          some ⟨strip, charge, p.stripPosition strip, crossTalk⟩ else none) := by
  rw [add_fst]
  by_cases hsame : other = strip
  · subst hsame
    have hjudge : p.judge other = .taken ↔ other ∉ p.hits.map (·.strip) := by
      rw [judge_eq_taken, ← h.fired _ hreads, Bool.not_eq_true, and_iff_right hreads]
    by_cases hnew : other ∈ p.hits.map (·.strip)
    · have hsome : p.hits.find? (·.strip == other) ≠ none := by
        rw [ne_eq, find?_strip_eq_none, not_not]
        exact hnew
      obtain ⟨hit, hhit⟩ := Option.ne_none_iff_exists'.mp hsome
      rw [if_neg (mt hjudge.mp (not_not_intro hnew)), hhit]
      rfl
    · rw [if_pos (hjudge.mpr hnew), find?_strip_eq_none.mpr hnew]
      simp only [fire, List.find?_append, find?_strip_eq_none.mpr hnew]
      simp
  · split
    · simp [fire, List.find?_append, hsame]
    · simp [hsame]

def hitOf (p : StripPlane α) (strip : Int) (charge : α) : StripHit α :=
  ⟨strip, charge, p.stripPosition strip, false⟩

/-- The hit of a strip that is read comes from the first charge offered to it. -/
theorem find?_hits_addAll {p : StripPlane α} (h : p.Consistent) (offers : List (Int × α))
    {strip : Int} (hreads : p.Reads strip) :
    (p.addAll offers).hits.find? (·.strip == strip) =
      (p.hits.find? (·.strip == strip)).or
        ((offers.find? (·.1 == strip)).map fun o => p.hitOf strip o.2) := by
  induction offers generalizing p with
  | nil => simp [addAll]
  | cons o offers ih =>
    have hstep : p.addAll (o :: offers) = (p.add o.1 o.2 false).1.addAll offers := rfl
    have hposition : (p.add o.1 o.2 false).1.hitOf strip = p.hitOf strip := by
      funext charge
      rw [hitOf, stripPosition_add, hitOf]
    rw [hstep, ih (h.add o.1 o.2 false) ((p.reads_add o.1 o.2 false strip).mpr hreads),
      find?_hits_add h o.1 o.2 false hreads, hposition, Option.or_assoc]
    congr 1
    by_cases hsame : o.1 = strip
    · simp [hsame, hitOf]
    · simp [hsame]

theorem reads_addAll (p : StripPlane α) (offers : List (Int × α)) (strip : Int) :
    (p.addAll offers).Reads strip ↔ p.Reads strip := by
  induction offers generalizing p with
  | nil => rfl
  | cons o offers ih => exact (ih _).trans (p.reads_add o.1 o.2 false strip)

/-- Offers with the same first charge for every strip that is read leave the same hits. -/
theorem hits_addAll_perm {p : StripPlane α} (h : p.Consistent) {xs ys : List (Int × α)}
    (hfirst : ∀ strip, p.Reads strip → xs.find? (·.1 == strip) = ys.find? (·.1 == strip)) :
    (p.addAll xs).hits.Perm (p.addAll ys).hits := by
  have hx := h.addAll xs
  have hy := h.addAll ys
  rw [List.perm_ext_iff_of_nodup (List.Nodup.of_map _ hx.nodup) (List.Nodup.of_map _ hy.nodup)]
  intro hit
  rw [mem_hits_iff hx, mem_hits_iff hy, reads_addAll, reads_addAll]
  apply and_congr_right
  intro hreads
  rw [find?_hits_addAll h xs hreads, find?_hits_addAll h ys hreads, hfirst _ hreads]

theorem addAll_rest (p : StripPlane α) (offers : List (Int × α)) :
    p.addAll offers =
      { p with fired := (p.addAll offers).fired, hits := (p.addAll offers).hits } := by
  induction offers generalizing p with
  | nil => rfl
  | cons o offers ih =>
    have hstep : p.addAll (o :: offers) = (p.add o.1 o.2 false).1.addAll offers := rfl
    rw [hstep, ih, add_fst]
    split
    · rfl
    · rfl

end StripPlane

end ShowerTrack
