import Mathlib.Logic.Relation
import ShowerTrack.Proofs.Filling

/-!
# The content of an event

What an event becomes depends on the energies that its live blocks get and on the first charge of
every strip that is read. The order in which blocks and strips are listed does not matter, and
neither do records that the detectors refuse.
-/

set_option autoImplicit false

namespace ShowerTrack

variable {α : Type}

section Clusters

variable [Scalar α] {hits others : List (StripHit α)}

/-- Strips are sorted before they are clustered, so that their order is forgotten. -/
theorem groupStrips_of_perm (hn : (hits.map (·.strip)).Nodup) (h : hits.Perm others) :
    groupStrips hits = groupStrips others := by
  have hsort := mergeSort_key_of_perm StripHit.strip hn h
  rw [groupStrips, hsort, groupStrips]

theorem formClusters_of_perm (s : TrackerSettings α) (hn : (hits.map (·.strip)).Nodup)
    (h : hits.Perm others) : formClusters s hits = formClusters s others := by
  rw [formClusters, groupStrips_of_perm hn h, formClusters]

end Clusters

namespace Chamber

variable [Scalar α]

/-- What crosses in a chamber does not depend on the order of the hits of its planes. -/
theorem reconstruct_of_perm {c d : Chamber α} (s : TrackerSettings α)
    (hdetector : c.detector = d.detector)
    (hcards : ∀ kind, (c.plane kind).cards = (d.plane kind).cards)
    (hn : ∀ kind, ((c.plane kind).hits.map (·.strip)).Nodup)
    (hhits : ∀ kind, (c.plane kind).hits.Perm (d.plane kind).hits) :
    (c.reconstruct s).hits = (d.reconstruct s).hits ∧
      (c.reconstruct s).overflow = (d.reconstruct s).overflow := by
  have hclusters : ∀ kind, ((c.plane kind).cluster s).clusters =
      ((d.plane kind).cluster s).clusters := by
    intro kind
    exact formClusters_of_perm s (hn kind) (hhits kind)
  have hx := hclusters .x
  have hy := hclusters .y
  have hunread : c.unread? = d.unread? := by
    rw [unread?, unread?]
    congr 1
    funext kind
    rw [hcards]
  simp only [plane] at hx hy
  unfold reconstruct
  rw [hunread]
  split
  · exact ⟨rfl, rfl⟩
  · simp only [hdetector, hx, hy, and_self]

def takeAll (c : Chamber α) (offers : Plane → List (Int × α)) : Chamber α :=
  { c with
    xPlane := c.xPlane.addAll (offers .x)
    yPlane := c.yPlane.addAll (offers .y) }

theorem plane_takeAll (c : Chamber α) (offers : Plane → List (Int × α)) (kind : Plane) :
    (c.takeAll offers).plane kind = (c.plane kind).addAll (offers kind) := by
  cases kind <;> rfl

theorem takeAll_append (c : Chamber α) (xs ys : Plane → List (Int × α)) :
    c.takeAll (fun kind => xs kind ++ ys kind) = (c.takeAll xs).takeAll ys := by
  simp only [takeAll, StripPlane.addAll, List.foldl_append]

/-- Charges with the same first one for every strip that is read cross alike. -/
theorem reconstruct_takeAll {c : Chamber α} (s : TrackerSettings α)
    (hc : ∀ kind, (c.plane kind).Consistent) {xs ys : Plane → List (Int × α)}
    (hfirst : ∀ kind strip, (c.plane kind).Reads strip →
      (xs kind).find? (·.1 == strip) = (ys kind).find? (·.1 == strip)) :
    ((c.takeAll xs).reconstruct s).hits = ((c.takeAll ys).reconstruct s).hits ∧
      ((c.takeAll xs).reconstruct s).overflow = ((c.takeAll ys).reconstruct s).overflow := by
  apply reconstruct_of_perm
  · rfl
  · intro kind
    rw [plane_takeAll, plane_takeAll, StripPlane.addAll_rest,
      StripPlane.addAll_rest (c.plane kind) (ys kind)]
  · intro kind
    rw [plane_takeAll]
    exact ((hc kind).addAll _).nodup
  · intro kind
    rw [plane_takeAll, plane_takeAll]
    exact StripPlane.hits_addAll_perm (hc kind) (hfirst kind)

end Chamber

def energiesOf [Scalar α] (bs : List (BlockEnergy α)) (id : Int) : List α :=
  (bs.filter fun b => b.id == id && 0 < b.energy).map (·.energy)

theorem Calorimeter.received_eq [Scalar α] {d : Calorimeter α} {j : Nat} {c : Channel α}
    (hc : d.channels[j]? = some c) (bs : List (BlockEnergy α)) :
    d.received bs j = if d.index? c.block.id = some j then energiesOf bs c.block.id else [] := by
  have hid : ∀ id, d.index? id = some j → id = c.block.id := by
    intro id hindex
    obtain ⟨e, he, rfl⟩ := block_of_index? hindex
    rw [Option.some.inj (hc.symm.trans he)]
  split
  · rename_i hindex
    rw [received, energiesOf]
    congr 1
    apply List.filter_congr
    intro b _
    have hiff : d.index? b.id = some j ↔ b.id = c.block.id :=
      ⟨hid b.id, fun h => h ▸ hindex⟩
    rw [Bool.eq_iff_iff]
    simp [counts, hiff]
  · rename_i hindex
    rw [received, List.map_eq_nil_iff, List.filter_eq_nil_iff]
    intro b _ hcounts
    have hb : d.index? b.id = some j := by
      simp only [counts, Bool.and_eq_true, beq_iff_eq] at hcounts
      exact hcounts.1
    exact hindex (hid b.id hb ▸ hb)

namespace Reconstructor

variable [Elementary α]

theorem fillBlocks_fst (bs : List (BlockEnergy α)) (r : Reconstructor α) :
    (fillBlocks bs r).1 = { r with calorimeter := r.calorimeter.addAll bs } := by
  induction bs generalizing r with
  | nil => rfl
  | cons b bs ih => exact ih (r.fillBlock b).1

def offer? (r : Reconstructor α) (detector : Detector) (kind : Plane) (s : StripSamples α) :
    Option (Int × α) :=
  if s.key.detector = detector ∧ s.key.plane = kind then
    (r.charge? s).map fun charge => (s.key.strip, charge)
  else none

def offers (r : Reconstructor α) (detector : Detector) (ss : List (StripSamples α))
    (kind : Plane) : List (Int × α) :=
  ss.filterMap (r.offer? detector kind)

theorem fire_fst (c : Chamber α) (key : StripKey) (charge : α) :
    (fire c key charge).1 = c.takeAll fun kind =>
      if key.plane = kind then [(key.strip, charge)] else [] := by
  cases hplane : key.plane with
  | x => simp [fire, Chamber.add, hplane, Chamber.takeAll, Chamber.plane, Chamber.withPlane,
      StripPlane.addAll]
  | y => simp [fire, Chamber.add, hplane, Chamber.takeAll, Chamber.plane, Chamber.withPlane,
      StripPlane.addAll]

theorem offers_of_ne (r : Reconstructor α) {detector : Detector} {s : StripSamples α}
    (h : s.key.detector ≠ detector) : r.offers detector [s] = fun _ => [] := by
  funext kind
  simp [offers, offer?, h]

theorem offers_of_some (r : Reconstructor α) {s : StripSamples α} {charge : α}
    (h : r.charge? s = some charge) : r.offers s.key.detector [s] =
      fun kind => if s.key.plane = kind then [(s.key.strip, charge)] else [] := by
  funext kind
  by_cases hplane : s.key.plane = kind
  · simp [offers, offer?, h, hplane]
  · simp [offers, offer?, hplane]

theorem offers_of_none (r : Reconstructor α) {s : StripSamples α} (h : r.charge? s = none)
    (detector : Detector) : r.offers detector [s] = fun _ => [] := by
  funext kind
  simp [offers, offer?, h]

theorem fillStrip_fst (r : Reconstructor α) (event : Nat) (s : StripSamples α) :
    (r.fillStrip event s).1 = { r with
      gem1 := r.gem1.takeAll (r.offers .gem1 [s])
      gem2 := r.gem2.takeAll (r.offers .gem2 [s]) } := by
  have hnone : ∀ c : Chamber α, c.takeAll (fun _ => []) = c := fun _ => rfl
  cases hdetector : s.key.detector with
  | hyCal =>
    rw [offers_of_ne r (by simp [hdetector]), offers_of_ne r (by simp [hdetector]), hnone, hnone]
    simp [fillStrip, hdetector]
  | gem1 =>
    have hother : r.offers .gem2 [s] = fun _ => [] := offers_of_ne r (by simp [hdetector])
    rw [hother, hnone]
    cases hcharge : r.charge? s with
    | none =>
      rw [offers_of_none r hcharge, hnone]
      simp [fillStrip, hdetector, hcharge]
    | some charge =>
      have hoffers := r.offers_of_some hcharge
      rw [hdetector] at hoffers
      rw [hoffers, ← fire_fst]
      simp [fillStrip, hdetector, hcharge]
  | gem2 =>
    have hother : r.offers .gem1 [s] = fun _ => [] := offers_of_ne r (by simp [hdetector])
    rw [hother, hnone]
    cases hcharge : r.charge? s with
    | none =>
      rw [offers_of_none r hcharge, hnone]
      simp [fillStrip, hdetector, hcharge]
    | some charge =>
      have hoffers := r.offers_of_some hcharge
      rw [hdetector] at hoffers
      rw [hoffers, ← fire_fst]
      simp [fillStrip, hdetector, hcharge]

theorem fillStrips_fst (event : Nat) (ss : List (StripSamples α)) (r : Reconstructor α) :
    (fillStrips event ss r).1 = { r with
      gem1 := r.gem1.takeAll (r.offers .gem1 ss)
      gem2 := r.gem2.takeAll (r.offers .gem2 ss) } := by
  induction ss generalizing r with
  | nil => rfl
  | cons s ss ih =>
    have hstep : (fillStrips event (s :: ss) r).1 =
        (fillStrips event ss (r.fillStrip event s).1).1 := rfl
    have hcons : ∀ detector, r.offers detector (s :: ss) =
        fun kind => r.offers detector [s] kind ++ r.offers detector ss kind := by
      intro detector
      funext kind
      simp only [offers, ← List.filterMap_append, List.singleton_append]
    rw [hstep, ih, fillStrip_fst, hcons, hcons, Chamber.takeAll_append, Chamber.takeAll_append]
    rfl

theorem fill_fst (r : Reconstructor α) (e : RawEvent α) :
    (r.fill e).1 = { r with
      calorimeter := r.calorimeter.addAll e.blocks
      gem1 := r.gem1.takeAll (r.offers .gem1 e.strips)
      gem2 := r.gem2.takeAll (r.offers .gem2 e.strips) } := by
  have hfill : (r.fill e).1 = (fillStrips e.number e.strips (fillBlocks e.blocks r).1).1 := rfl
  rw [hfill, fillStrips_fst, fillBlocks_fst]
  rfl

def firstCharge? (r : Reconstructor α) (ss : List (StripSamples α)) (key : StripKey) : Option α :=
  (ss.filter (·.key == key)).findSome? r.charge?

theorem firstCharge?_append (r : Reconstructor α) (xs ys : List (StripSamples α))
    (key : StripKey) :
    r.firstCharge? (xs ++ ys) key = (r.firstCharge? xs key).or (r.firstCharge? ys key) := by
  rw [firstCharge?, List.filter_append, List.findSome?_append]
  rfl

theorem firstCharge?_cons (r : Reconstructor α) (s : StripSamples α) (ss : List (StripSamples α))
    (key : StripKey) : r.firstCharge? (s :: ss) key =
      (if s.key = key then r.charge? s else none).or (r.firstCharge? ss key) := by
  rw [← List.singleton_append, firstCharge?_append]
  congr 1
  by_cases hkey : s.key = key
  · simp [firstCharge?, hkey]
  · simp [firstCharge?, hkey]

theorem find?_offers (r : Reconstructor α) (ss : List (StripSamples α)) (detector : Detector)
    (kind : Plane) (strip : Int) :
    (r.offers detector ss kind).find? (·.1 == strip) =
      (r.firstCharge? ss ⟨detector, kind, strip⟩).map fun charge => (strip, charge) := by
  induction ss with
  | nil => rfl
  | cons s ss ih =>
    have hcons : r.offers detector (s :: ss) kind =
        (r.offer? detector kind s).toList ++ r.offers detector ss kind := by
      rw [offers, List.filterMap_cons]
      cases r.offer? detector kind s <;> rfl
    have hhead : (r.offer? detector kind s).toList.find? (·.1 == strip) =
        (if s.key = ⟨detector, kind, strip⟩ then r.charge? s else none).map
          fun charge => (strip, charge) := by
      by_cases hplane : s.key.detector = detector ∧ s.key.plane = kind
      · have hkey : s.key = ⟨detector, kind, strip⟩ ↔ s.key.strip = strip := by
          rw [StripKey.mk.injEq, ← and_assoc, and_iff_right hplane]
        rw [offer?, if_pos hplane]
        by_cases hstrip : s.key.strip = strip
        · rw [if_pos (hkey.mpr hstrip)]
          cases r.charge? s <;> simp [hstrip]
        · rw [if_neg (mt hkey.mp hstrip)]
          cases r.charge? s <;> simp [hstrip]
      · have hkey : s.key ≠ ⟨detector, kind, strip⟩ := by
          rintro hkey
          exact hplane (by rw [hkey]; exact ⟨rfl, rfl⟩)
        rw [offer?, if_neg hplane, if_neg hkey]
        rfl
    rw [hcons, List.find?_append, hhead, ih, firstCharge?_cons, Option.map_or]

/-- A strip of one of the trackers that is no guard. -/
def Reads (r : Reconstructor α) (key : StripKey) : Prop :=
  match key.detector with
  | .hyCal => False
  | .gem1 => (r.gem1.plane key.plane).Reads key.strip
  | .gem2 => (r.gem2.plane key.plane).Reads key.strip

/-- Two events of one number that give every live block the same positive energies in the same
order, and every strip that is read the same first charge. -/
structure SameContent (r : Reconstructor α) (e f : RawEvent α) : Prop where
  number : e.number = f.number
  blocks : ∀ id c, r.calorimeter.channel? id = some c → c.dead = false →
    energiesOf e.blocks id = energiesOf f.blocks id
  strips : ∀ key, r.Reads key → r.firstCharge? e.strips key = r.firstCharge? f.strips key

theorem SameContent.calorimeter {r : Reconstructor α} {e f : RawEvent α} (h : r.SameContent e f) :
    r.clear.calorimeter.addAll e.blocks = r.clear.calorimeter.addAll f.blocks := by
  apply Calorimeter.addAll_congr
  intro j c hc hlive
  rw [Calorimeter.received_eq hc, Calorimeter.received_eq hc]
  split
  · rename_i hindex
    have hindex : r.calorimeter.index? c.block.id = some j := by
      rw [← hindex]
      exact Calorimeter.index?_of_clear_eq r.calorimeter.clear_clear.symm _
    simp only [clear, Calorimeter.clear, List.getElem?_map, Option.map_eq_some_iff] at hc
    obtain ⟨d, hd, rfl⟩ := hc
    apply h.blocks _ d _ hlive
    rw [Calorimeter.channel?, hindex]
    exact hd
  · rfl

theorem SameContent.readOut {r : Reconstructor α} {e f : RawEvent α} (h : r.SameContent e f) :
    (r.clear.fill e).1.runDetectors.readOut e.number =
      (r.clear.fill f).1.runDetectors.readOut f.number := by
  have hfirst : ∀ detector kind strip, r.Reads ⟨detector, kind, strip⟩ →
      (r.clear.offers detector e.strips kind).find? (·.1 == strip) =
        (r.clear.offers detector f.strips kind).find? (·.1 == strip) := by
    intro detector kind strip hreads
    have hcharge := h.strips _ hreads
    rw [find?_offers, find?_offers]
    exact congrArg _ hcharge
  have hconsistent : ∀ (c : Chamber α) (kind : Plane), (c.clear.plane kind).Consistent := by
    intro c kind
    cases kind <;> exact StripPlane.consistent_clear _
  have hreads : ∀ (c : Chamber α) (kind : Plane) (strip : Int),
      (c.clear.plane kind).Reads strip → (c.plane kind).Reads strip := by
    intro c kind strip hstrip
    cases kind <;> exact hstrip
  obtain ⟨hhits₁, hoverflow₁⟩ := Chamber.reconstruct_takeAll r.settings.tracker
    (hconsistent r.gem1) fun kind strip hstrip =>
      hfirst .gem1 kind strip (hreads r.gem1 kind strip hstrip)
  obtain ⟨hhits₂, hoverflow₂⟩ := Chamber.reconstruct_takeAll r.settings.tracker
    (hconsistent r.gem2) fun kind strip hstrip =>
      hfirst .gem2 kind strip (hreads r.gem2 kind strip hstrip)
  have hdetector : ∀ (c : Chamber α) (offers : Plane → List (Int × α)),
      ((c.clear.takeAll offers).reconstruct r.settings.tracker).detector = c.detector := by
    intro c offers
    unfold Chamber.reconstruct
    split
    · rfl
    · rfl
  rw [fill_fst, fill_fst, h.calorimeter]
  simp only [clear] at hhits₁ hoverflow₁ hhits₂ hoverflow₂
  simp only [runDetectors, Reconstructor.readOut, clear, hdetector, hhits₁, hoverflow₁, hhits₂,
    hoverflow₂, h.number]

/-- Changes of an event that the detectors do not notice: records of different blocks or strips
change places, and records come in that are refused or repeat a strip. -/
inductive Unnoticed (r : Reconstructor α) : RawEvent α → RawEvent α → Prop
  | swapBlocks (n : Nat) (front back : List (BlockEnergy α)) (a b : BlockEnergy α)
      (strips : List (StripSamples α)) (h : a.id ≠ b.id) :
      Unnoticed r ⟨n, front ++ a :: b :: back, strips⟩ ⟨n, front ++ b :: a :: back, strips⟩
  | unknownBlock (n : Nat) (front back : List (BlockEnergy α)) (b : BlockEnergy α)
      (strips : List (StripSamples α)) (h : r.calorimeter.channel? b.id = none) :
      Unnoticed r ⟨n, front ++ back, strips⟩ ⟨n, front ++ b :: back, strips⟩
  | deadBlock (n : Nat) (front back : List (BlockEnergy α)) (b : BlockEnergy α)
      (strips : List (StripSamples α)) (h : r.calorimeter.isDead b.id = true) :
      Unnoticed r ⟨n, front ++ back, strips⟩ ⟨n, front ++ b :: back, strips⟩
  | nonPositive (n : Nat) (front back : List (BlockEnergy α)) (b : BlockEnergy α)
      (strips : List (StripSamples α)) (h : ¬ 0 < b.energy) :
      Unnoticed r ⟨n, front ++ back, strips⟩ ⟨n, front ++ b :: back, strips⟩
  | swapStrips (n : Nat) (blocks : List (BlockEnergy α)) (front back : List (StripSamples α))
      (s t : StripSamples α) (h : s.key ≠ t.key) :
      Unnoticed r ⟨n, blocks, front ++ s :: t :: back⟩ ⟨n, blocks, front ++ t :: s :: back⟩
  | unreadStrip (n : Nat) (blocks : List (BlockEnergy α)) (front back : List (StripSamples α))
      (s : StripSamples α) (h : ¬ r.Reads s.key) :
      Unnoticed r ⟨n, blocks, front ++ back⟩ ⟨n, blocks, front ++ s :: back⟩
  | suppressed (n : Nat) (blocks : List (BlockEnergy α)) (front back : List (StripSamples α))
      (s : StripSamples α) (h : r.charge? s = none) :
      Unnoticed r ⟨n, blocks, front ++ back⟩ ⟨n, blocks, front ++ s :: back⟩
  | repeated (n : Nat) (blocks : List (BlockEnergy α)) (front back : List (StripSamples α))
      (s t : StripSamples α) (ht : t ∈ front) (hkey : t.key = s.key) (h : r.charge? t ≠ none) :
      Unnoticed r ⟨n, blocks, front ++ back⟩ ⟨n, blocks, front ++ s :: back⟩

theorem energiesOf_append (xs ys : List (BlockEnergy α)) (id : Int) :
    energiesOf (xs ++ ys) id = energiesOf xs id ++ energiesOf ys id := by
  rw [energiesOf, List.filter_append, List.map_append]
  rfl

theorem energiesOf_cons_of_ne {b : BlockEnergy α} {id : Int} (h : b.id ≠ id)
    (bs : List (BlockEnergy α)) : energiesOf (b :: bs) id = energiesOf bs id := by
  rw [energiesOf, List.filter_cons_of_neg (by simp [h])]
  rfl

theorem energiesOf_cons_congr (b : BlockEnergy α) {id : Int} {bs cs : List (BlockEnergy α)}
    (h : energiesOf bs id = energiesOf cs id) :
    energiesOf (b :: bs) id = energiesOf (b :: cs) id := by
  rw [← List.singleton_append, energiesOf_append, h, ← energiesOf_append, List.singleton_append]

namespace SameContent

variable {r : Reconstructor α} {e f : RawEvent α}

theorem refl (r : Reconstructor α) (e : RawEvent α) : r.SameContent e e :=
  ⟨rfl, fun _ _ _ _ => rfl, fun _ _ => rfl⟩

theorem symm (h : r.SameContent e f) : r.SameContent f e where
  number := h.number.symm
  blocks id c hc hlive := (h.blocks id c hc hlive).symm
  strips key hreads := (h.strips key hreads).symm

theorem trans {g : RawEvent α} (h : r.SameContent e f) (k : r.SameContent f g) :
    r.SameContent e g where
  number := h.number.trans k.number
  blocks id c hc hlive := (h.blocks id c hc hlive).trans (k.blocks id c hc hlive)
  strips key hreads := (h.strips key hreads).trans (k.strips key hreads)

theorem of_blocks (n : Nat) {bs cs : List (BlockEnergy α)} (strips : List (StripSamples α))
    (h : ∀ id c, r.calorimeter.channel? id = some c → c.dead = false →
      energiesOf bs id = energiesOf cs id) : r.SameContent ⟨n, bs, strips⟩ ⟨n, cs, strips⟩ :=
  ⟨rfl, h, fun _ _ => rfl⟩

theorem of_strips (n : Nat) (blocks : List (BlockEnergy α)) {ss ts : List (StripSamples α)}
    (h : ∀ key, r.Reads key → r.firstCharge? ss key = r.firstCharge? ts key) :
    r.SameContent ⟨n, blocks, ss⟩ ⟨n, blocks, ts⟩ :=
  ⟨rfl, fun _ _ _ _ => rfl, h⟩

theorem of_newBlock (n : Nat) (front back : List (BlockEnergy α)) (b : BlockEnergy α)
    (strips : List (StripSamples α))
    (h : ∀ c, r.calorimeter.channel? b.id = some c → c.dead = false → ¬ 0 < b.energy) :
    r.SameContent ⟨n, front ++ back, strips⟩ ⟨n, front ++ b :: back, strips⟩ := by
  apply of_blocks
  intro id c hc hlive
  rw [energiesOf_append, energiesOf_append]
  congr 1
  by_cases hid : b.id = id
  · subst hid
    rw [energiesOf, energiesOf, List.filter_cons_of_neg (by simp [h c hc hlive])]
  · rw [energiesOf_cons_of_ne hid]

theorem of_newStrip (n : Nat) (blocks : List (BlockEnergy α)) (front back : List (StripSamples α))
    (s : StripSamples α)
    (h : r.Reads s.key → r.charge? s ≠ none → r.firstCharge? front s.key ≠ none) :
    r.SameContent ⟨n, blocks, front ++ back⟩ ⟨n, blocks, front ++ s :: back⟩ := by
  apply of_strips
  intro key hreads
  rw [firstCharge?_append, firstCharge?_append, firstCharge?_cons]
  by_cases hkey : s.key = key
  · subst hkey
    rw [if_pos rfl]
    cases hcharge : r.charge? s with
    | none => rw [Option.none_or]
    | some charge =>
      obtain ⟨first, hfirst⟩ := Option.ne_none_iff_exists'.mp (h hreads (by simp [hcharge]))
      rw [hfirst, Option.some_or, Option.some_or]
  · rw [if_neg hkey, Option.none_or]

theorem of_unnoticed (h : r.Unnoticed e f) : r.SameContent e f := by
  cases h with
  | swapBlocks n front back a b strips hne =>
    apply of_blocks
    intro id _ _ _
    rw [energiesOf_append, energiesOf_append]
    congr 1
    by_cases ha : a.id = id
    · have hb : b.id ≠ id := fun hb => hne (ha.trans hb.symm)
      rw [energiesOf_cons_of_ne hb, energiesOf_cons_congr a (energiesOf_cons_of_ne hb back)]
    · rw [energiesOf_cons_of_ne ha, energiesOf_cons_congr b (energiesOf_cons_of_ne ha back)]
  | unknownBlock n front back b strips hunknown =>
    apply of_newBlock
    intro c hc
    rw [hunknown] at hc
    cases hc
  | deadBlock n front back b strips hdead =>
    apply of_newBlock
    intro c hc hlive
    rw [Calorimeter.isDead, hc] at hdead
    exact absurd (hlive.symm.trans hdead) Bool.false_ne_true
  | nonPositive n front back b strips hpos =>
    exact of_newBlock n front back b strips fun _ _ _ => hpos
  | swapStrips n blocks front back s t hne =>
    apply of_strips
    intro key _
    rw [firstCharge?_append, firstCharge?_append]
    congr 1
    rw [firstCharge?_cons, firstCharge?_cons, firstCharge?_cons, firstCharge?_cons]
    by_cases hs : s.key = key
    · have ht : t.key ≠ key := fun ht => hne (hs.trans ht.symm)
      rw [if_neg ht, Option.none_or, Option.none_or]
    · rw [if_neg hs, Option.none_or, Option.none_or]
  | unreadStrip n blocks front back s hunread =>
    exact of_newStrip n blocks front back s fun hreads => absurd hreads hunread
  | suppressed n blocks front back s hnone =>
    exact of_newStrip n blocks front back s fun _ hcharge => absurd hnone hcharge
  | repeated n blocks front back s t ht hkey hcharge =>
    apply of_newStrip
    intro _ _ hnone
    rw [firstCharge?, List.findSome?_eq_none_iff] at hnone
    exact hcharge (hnone t (List.mem_filter.mpr ⟨ht, by simp [hkey]⟩))

theorem of_unnoticedAll (h : Relation.EqvGen r.Unnoticed e f) : r.SameContent e f := by
  induction h with
  | rel e f h => exact of_unnoticed h
  | refl e => exact refl r e
  | symm e f _ ih => exact ih.symm
  | trans e f g _ _ ihe ihf => exact ihe.trans ihf

end SameContent

/-- Events with the same content are reconstructed to the same event, and so are events of which
one becomes the other by changes that the detectors do not notice. -/
theorem reconstruct_eq_of_sameContent (r : Reconstructor α) :
    (∀ e f, r.SameContent e f → (r.reconstruct e).2 = (r.reconstruct f).2) ∧
      ∀ e f, Relation.EqvGen r.Unnoticed e f → r.SameContent e f := by
  constructor
  · intro e f h
    exact h.readOut
  · intro e f h
    exact SameContent.of_unnoticedAll h

/-- Two records change places, one without energy comes in and one of a strip that no tracker
has. -/
theorem reconstruct_eq_of_reordered_pair :
    let r : Reconstructor Float32 := .build .standard ⟨#[], #[]⟩ .nominal ∅
    (r.reconstruct ⟨7, [⟨1018, 300⟩, ⟨1019, 100⟩], []⟩).2 =
      (r.reconstruct ⟨7, [⟨1019, 100⟩, ⟨1018, 300⟩, ⟨1020, -1⟩],
        [⟨⟨.hyCal, .x, 30⟩, [50, 60]⟩]⟩).2 := by
  intro r
  obtain ⟨reconstruct_eq, sameContent⟩ := r.reconstruct_eq_of_sameContent
  apply reconstruct_eq
  apply sameContent
  have hswap : r.Unnoticed ⟨7, [⟨1018, 300⟩, ⟨1019, 100⟩], []⟩
      ⟨7, [⟨1019, 100⟩, ⟨1018, 300⟩], []⟩ := .swapBlocks 7 [] [] _ _ [] (by decide)
  have hblock : r.Unnoticed ⟨7, [⟨1019, 100⟩, ⟨1018, 300⟩], []⟩
      ⟨7, [⟨1019, 100⟩, ⟨1018, 300⟩, ⟨1020, -1⟩], []⟩ :=
    .nonPositive 7 [⟨1019, 100⟩, ⟨1018, 300⟩] [] ⟨1020, -1⟩ [] (by decide +kernel)
  have hstrip : r.Unnoticed ⟨7, [⟨1019, 100⟩, ⟨1018, 300⟩, ⟨1020, -1⟩], []⟩
      ⟨7, [⟨1019, 100⟩, ⟨1018, 300⟩, ⟨1020, -1⟩], [⟨⟨.hyCal, .x, 30⟩, [50, 60]⟩]⟩ :=
    .unreadStrip 7 _ [] [] ⟨⟨.hyCal, .x, 30⟩, [50, 60]⟩ id
  exact .trans _ _ _ (.rel _ _ hswap) (.trans _ _ _ (.rel _ _ hblock) (.rel _ _ hstrip))

end Reconstructor

end ShowerTrack
