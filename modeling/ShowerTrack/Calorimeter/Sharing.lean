import ShowerTrack.Scalar

/-!
# Energy sharing

The energy of every item of a group is shared between the peaks of the group, in
proportion to what the profile expects of each. The shares move the centers of
the peaks, and the centers the shares, for a number of passes.
-/

set_option autoImplicit false

namespace ShowerTrack

/-- A group that is shared: its items, its peaks, and what sharing asks of them. -/
structure Sharing (α ι : Type) where
  items : List ι
  peaks : List ι
  energy : ι → α
  position : ι → α × α
  /-- The fraction that an item collects of a shower centered at a point. -/
  fraction : ι → α → α → α
  /-- The number of the peak that is nearest to an item. -/
  nearest : ι → Nat
  /-- Whether an item helps to locate a peak. -/
  inCore : ι → ι → Bool

namespace Sharing

variable {α ι : Type} [Scalar α]

structure Center (α : Type) where
  x : α
  y : α
  energy : α

def start (g : Sharing α ι) : List (Center α) :=
  g.peaks.map fun p => ⟨(g.position p).1, (g.position p).2, g.energy p⟩

/-- The shares of one item. An item that no profile reaches goes to its nearest peak. -/
def row (g : Sharing α ι) (centers : List (Center α)) (i : ι) : Array α :=
  let weights := centers.map fun c => c.energy * g.fraction i c.x c.y
  let total := Scalar.sum weights
  if 0 < total then (weights.map (· / total)).toArray
  else
    let nearest := g.nearest i
    (Array.range g.peaks.length).map fun k => if k = nearest then 1 else 0

def rows (g : Sharing α ι) (centers : List (Center α)) : List (ι × Array α) :=
  g.items.map fun i => (i, g.row centers i)

structure Moment (α : Type) where
  x : α
  y : α
  core : α
  total : α

def Moment.add (g : Sharing α ι) (peak : ι) (k : Nat) (m : Moment α) (r : ι × Array α) :
    Moment α :=
  let e := g.energy r.1 * r.2.getD k 0
  let total := m.total + e
  if g.inCore peak r.1 then
    ⟨m.x + e * (g.position r.1).1, m.y + e * (g.position r.1).2, m.core + e, total⟩
  else { m with total }

def recenter (g : Sharing α ι) (rows : List (ι × Array α)) (peak : ι) (k : Nat)
    (c : Center α) : Center α :=
  let m := rows.foldl (Moment.add g peak k) ⟨0, 0, 0, 0⟩
  if 0 < m.core then ⟨m.x / m.core, m.y / m.core, m.total⟩ else { c with energy := m.total }

def recenterAll (g : Sharing α ι) (rows : List (ι × Array α)) (centers : List (Center α)) :
    List (Center α) :=
  ((g.peaks.zip centers).zipIdx).map fun ((peak, c), k) => g.recenter rows peak k c

def rowsAfter (g : Sharing α ι) : Nat → List (Center α) → List (ι × Array α)
  | 0, centers => g.rows centers
  | n + 1, centers => g.rowsAfter n (g.recenterAll (g.rows centers) centers)

/-- The shares of every item; there is always one pass. -/
def shares (g : Sharing α ι) (passes : Nat) : List (ι × Array α) :=
  g.rowsAfter (passes - 1) g.start

theorem rowsAfter_items (g : Sharing α ι) (n : Nat) (centers : List (Center α)) :
    (g.rowsAfter n centers).map (·.1) = g.items := by
  induction n generalizing centers with
  | zero => simp [rowsAfter, rows, Function.comp_def]
  | succ n ih => exact ih _

theorem size_row {g : Sharing α ι} {centers : List (Center α)}
    (hcenters : centers.length = g.peaks.length) (i : ι) :
    (g.row centers i).size = g.peaks.length := by
  simp only [row]
  split
  · simp [hcenters]
  · simp

theorem length_recenterAll {g : Sharing α ι} (rows : List (ι × Array α))
    {centers : List (Center α)} (hcenters : centers.length = g.peaks.length) :
    (g.recenterAll rows centers).length = g.peaks.length := by
  simp [recenterAll, hcenters]

/-- The last shares are rows of some centers, one for each peak. -/
theorem exists_rows (g : Sharing α ι) (n : Nat) {centers : List (Center α)}
    (hcenters : centers.length = g.peaks.length) :
    ∃ last, last.length = g.peaks.length ∧ g.rowsAfter n centers = g.rows last := by
  induction n generalizing centers with
  | zero => exact ⟨centers, hcenters, rfl⟩
  | succ n ih => exact ih (length_recenterAll (g.rows centers) hcenters)

theorem exists_shares (g : Sharing α ι) (n : Nat) :
    ∃ last, last.length = g.peaks.length ∧ g.shares n = g.rows last :=
  exists_rows g (n - 1) (by simp [start])

theorem size_of_mem_shares {g : Sharing α ι} {n : Nat} {r : ι × Array α} (hr : r ∈ g.shares n) :
    r.2.size = g.peaks.length := by
  obtain ⟨last, hlast, hrows⟩ := g.exists_shares n
  rw [hrows] at hr
  obtain ⟨i, _, rfl⟩ := List.mem_map.mp hr
  exact size_row hlast i

end Sharing

end ShowerTrack
