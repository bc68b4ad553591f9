import ShowerTrack.Calorimeter.Hit
import ShowerTrack.Proofs.Checked.Reading

/-!
# Checked profiles

The nodes around a distance are bounded by the last node that starts a cell, whatever the distance
is, so that a table with a value on every node answers for all distances.
-/

set_option autoImplicit false

namespace ShowerTrack

section Nodes

variable {α : Type} [Scalar α]

def Profile.Full (p : Profile α) : Prop := ∀ kind, (p.table kind).size = Profile.bins * Profile.bins

theorem Profile.size_tabulate (fraction : α → α → α) :
    (tabulate fraction).size = bins * bins := by
  rw [tabulate, Array.size_ofFn]

theorem Profile.full_ofFractions (fraction : BlockKind → α → α → α) :
    (ofFractions fraction).Full := by
  intro kind
  cases kind with
  | crystal => rw [ofFractions, table, size_tabulate]
  | glass => rw [ofFractions, table, size_tabulate]

/-- There is a node behind the first one of every cell. -/
theorem Profile.cellIndex_succ_lt (f : α) : cellIndex f + 1 < bins := by
  have hle : cellIndex f ≤ bins - 2 := Nat.min_le_right (Scalar.truncate f) (bins - 2)
  have hbins : bins = 251 := rfl
  omega

namespace Checked

def node (p : Profile α) (kind : BlockKind) (ix iy : Nat) : Option α :=
  if ix < Profile.bins ∧ iy < Profile.bins then (p.table kind)[ix * Profile.bins + iy]? else none

def fraction (p : Profile α) (kind : BlockKind) (dx dy : α) : Option α :=
  let dx := Scalar.abs dx
  let dy := Scalar.abs dy
  if Profile.range ≤ dx ∨ Profile.range ≤ dy then some 0
  else do
    let fx := dx / Profile.step
    let fy := dy / Profile.step
    let last ← sub Profile.bins 2
    let ix := Nat.min (Scalar.truncate fx) last
    let iy := Nat.min (Scalar.truncate fy) last
    let v00 ← node p kind ix iy
    let v10 ← node p kind (ix + 1) iy
    let v01 ← node p kind ix (iy + 1)
    let v11 ← node p kind (ix + 1) (iy + 1)
    some (Profile.interpolate (fx - Scalar.ofNat ix) (fy - Scalar.ofNat iy) v00 v10 v01 v11)

def fractionAt (p : Profile α) (b : Placement α) (x y : α) : Option α :=
  fraction p b.kind ((x - b.x) / b.sizeX) ((y - b.y) / b.sizeY)

variable {p : Profile α} (hp : p.Full)

include hp

theorem node_eq (kind : BlockKind) {ix iy : Nat} (hx : ix < Profile.bins) (hy : iy < Profile.bins) :
    node p kind ix iy = some (p.node kind ix iy) := by
  have hbound : ix * Profile.bins + iy < (p.table kind).size := by
    rw [hp kind]
    exact flat_lt hx hy
  rw [node, if_pos ⟨hx, hy⟩, Profile.node]
  simp [hbound]

theorem fraction_eq (kind : BlockKind) (dx dy : α) :
    fraction p kind dx dy = some (p.fraction kind dx dy) := by
  have hcell : ∀ f : α, Nat.min (Scalar.truncate f) (Profile.bins - 2) + 1 < Profile.bins :=
    Profile.cellIndex_succ_lt
  rw [fraction, Profile.fraction]
  simp only
  split
  · rfl
  · have hx := hcell (Scalar.abs dx / Profile.step)
    have hy := hcell (Scalar.abs dy / Profile.step)
    rw [sub_eq (show 2 ≤ Profile.bins by decide)]
    simp only [Option.bind_eq_bind, Option.bind_some, node_eq hp kind (Nat.lt_of_succ_lt hx)
      (Nat.lt_of_succ_lt hy), node_eq hp kind hx (Nat.lt_of_succ_lt hy),
      node_eq hp kind (Nat.lt_of_succ_lt hx) hy, node_eq hp kind hx hy]
    rfl

theorem fractionAt_eq (b : Placement α) (x y : α) :
    fractionAt p b x y = some (p.fractionAt b x y) :=
  fraction_eq hp _ _ _

end Checked

end Nodes

namespace Checked

section Estimates

variable {α : Type} [Scalar α]

def estimates (p : Profile α) (dead : List (BlockHit α)) (x y energy : α) :
    Option (List (BlockHit α)) :=
  dead.mapM fun b => do
    let f ← fractionAt p b.place x y
    some { b with energy := f * energy }

theorem estimates_eq {p : Profile α} (hp : p.Full) (dead : List (BlockHit α)) (x y energy : α) :
    estimates p dead x y energy = some (CaloSettings.estimates p dead x y energy) := by
  apply mapM_eq
  intro b _
  rw [fractionAt_eq hp]
  rfl

end Estimates

variable {α : Type} [Elementary α]

def leakEstimates (s : CaloSettings α) (p : Profile α) (c : BlockCluster α)
    (dead : List (BlockHit α)) : Nat → Option (List (BlockHit α))
  | 0 => estimates p dead c.center.place.x c.center.place.y c.energy
  | n + 1 => do
    let leaks ← leakEstimates s p c dead n
    let (x, y) := s.position c.center (c.hits ++ leaks)
    estimates p leaks x y c.energy

def recoverLeakage (s : CaloSettings α) (p : Profile α) (dead : List (BlockHit α))
    (c : BlockCluster α) : Option (BlockCluster α) :=
  if dead.isEmpty || c.isEmpty then some c
  else do
    let leaks ← leakEstimates s p c dead s.leakIterations
    some (leaks.foldl (CaloSettings.recover (s.leastLeak * c.energy)) (c.setFlag .deadNeighbor))

/-- New estimates for the same blocks do not depend on the old ones. -/
theorem estimates_estimates (p : Profile α) (dead : List (BlockHit α)) (x y z w e f : α) :
    CaloSettings.estimates p (CaloSettings.estimates p dead x y e) z w f =
      CaloSettings.estimates p dead z w f := by
  simp [CaloSettings.estimates]

theorem leakEstimates_eq (s : CaloSettings α) {p : Profile α} (hp : p.Full) (c : BlockCluster α)
    (dead : List (BlockHit α)) (n : Nat) :
    leakEstimates s p c dead n = some (s.leakEstimates p c dead n) := by
  induction n with
  | zero => exact estimates_eq hp _ _ _ _
  | succ n ih =>
    have hsame : ∀ x y : α, CaloSettings.estimates p (s.leakEstimates p c dead n) x y c.energy =
        CaloSettings.estimates p dead x y c.energy := by
      intro x y
      cases n with
      | zero => exact estimates_estimates p dead _ _ _ _ _ _
      | succ n => exact estimates_estimates p dead _ _ _ _ _ _
    rw [leakEstimates, ih]
    simp only [Option.bind_eq_bind, Option.bind_some, estimates_eq hp, hsame]
    rfl

theorem recoverLeakage_eq (s : CaloSettings α) {p : Profile α} (hp : p.Full)
    (dead : List (BlockHit α)) (c : BlockCluster α) :
    recoverLeakage s p dead c = some (s.recoverLeakage p dead c) := by
  rw [recoverLeakage, CaloSettings.recoverLeakage, leakEstimates_eq s hp]
  split
  · rfl
  · rfl

end Checked

end ShowerTrack
