import ShowerTrack.Calorimeter.Sharing
import ShowerTrack.Proofs.Checked.Reading

/-!
# Checked energy sharing

The shares are kept in a table with a row for every item and an entry for every peak, and the
centers in an array. Both keep their sizes from pass to pass.
-/

set_option autoImplicit false

namespace ShowerTrack.Checked

variable {α ι : Type}

open ShowerTrack.Sharing (Center Moment)

/-- A group that is shared, where what sharing asks of an item has to be looked up. -/
structure Sharing (α ι : Type) where
  items : List ι
  peaks : List ι
  energy : ι → Option α
  position : ι → α × α
  fraction : ι → α → α → Option α
  nearest : ι → Option Nat
  inCore : ι → ι → Bool

namespace Sharing

def start (c : Sharing α ι) : Option (List (Center α)) :=
  c.peaks.mapM fun p => do
    let e ← c.energy p
    some ⟨(c.position p).1, (c.position p).2, e⟩

structure Finds (c : Sharing α ι) (g : ShowerTrack.Sharing α ι) : Prop where
  items : c.items = g.items
  peaks : c.peaks = g.peaks
  position : c.position = g.position
  inCore : c.inCore = g.inCore
  itemEnergy : ∀ i ∈ g.items, c.energy i = some (g.energy i)
  peakEnergy : ∀ i ∈ g.peaks, c.energy i = some (g.energy i)
  fraction : ∀ i ∈ g.items, ∀ x y, c.fraction i x y = some (g.fraction i x y)
  nearest : ∀ i ∈ g.items, c.nearest i = some (g.nearest i) ∧ g.nearest i < g.peaks.length

theorem Finds.start_eq {c : Sharing α ι} {g : ShowerTrack.Sharing α ι} (h : c.Finds g) :
    c.start = some g.start := by
  rw [start, h.peaks]
  apply mapM_eq
  intro p hp
  rw [h.peakEnergy p hp, h.position]
  rfl

variable [Scalar α]

def weights (c : Sharing α ι) (centers : Array (Center α)) (i : ι) : Option (List α) :=
  centers.toList.mapM fun center => do
    let f ← c.fraction i center.x center.y
    some (center.energy * f)

def fillRow (c : Sharing α ι) (centers : Array (Center α)) (shares : Array (Array α))
    (x : ι × Nat) : Option (Array (Array α)) := do
  let weights ← c.weights centers x.1
  let total := Scalar.sum weights
  if 0 < total then
    weights.zipIdx.foldlM (fun shares w => edit shares x.2 (put · w.2 (w.1 / total))) shares
  else
    let nearest ← c.nearest x.1
    let shares ← edit shares x.2 fun row => some (row.map fun _ => 0)
    edit shares x.2 (put · nearest 1)

def weigh (c : Sharing α ι) (shares : Array (Array α)) (peak : ι) (k : Nat) (m : Moment α)
    (x : ι × Nat) : Option (Moment α) := do
  let energy ← c.energy x.1
  let row ← shares[x.2]?
  let share ← row[k]?
  let e := energy * share
  let total := m.total + e
  some <| if c.inCore peak x.1 then
    ⟨m.x + e * (c.position x.1).1, m.y + e * (c.position x.1).2, m.core + e, total⟩
  else { m with total }

def recenter (c : Sharing α ι) (shares : Array (Array α)) (centers : Array (Center α))
    (x : ι × Nat) : Option (Array (Center α)) := do
  let m ← c.items.zipIdx.foldlM (c.weigh shares x.1 x.2) ⟨0, 0, 0, 0⟩
  if 0 < m.core then put centers x.2 ⟨m.x / m.core, m.y / m.core, m.total⟩
  else edit centers x.2 fun center => some { center with energy := m.total }

def pass (c : Sharing α ι) (centers : Array (Center α)) (shares : Array (Array α)) :
    Option (Array (Center α) × Array (Array α)) := do
  let shares ← c.items.zipIdx.foldlM (c.fillRow centers) shares
  let centers ← c.peaks.zipIdx.foldlM (c.recenter shares) centers
  some (centers, shares)

def passes (c : Sharing α ι) :
    Nat → Array (Center α) → Array (Array α) → Option (Array (Array α))
  | 0, _, shares => some shares
  | n + 1, centers, shares => do
    let (centers, shares) ← c.pass centers shares
    passes c n centers shares

def shares (c : Sharing α ι) (passes : Nat) : Option (Array (Array α)) := do
  let centers ← c.start
  c.passes (Nat.max passes 1) centers.toArray
    (.replicate c.items.length (.replicate c.peaks.length 0))

section Passes

variable {c : Sharing α ι} {g : ShowerTrack.Sharing α ι} (h : c.Finds g)
  {centers : Array (Center α)} (hcenters : centers.size = g.peaks.length)

include h

theorem Finds.weights_eq {i : ι} (hi : i ∈ g.items) : c.weights centers i =
    some (centers.toList.map fun center => center.energy * g.fraction i center.x center.y) := by
  apply mapM_eq
  intro center _
  rw [h.fraction i hi]
  rfl

include hcenters

theorem Finds.fillRow_eq {i : ι} (hi : i ∈ g.items) (pre post : List (Array α)) {row : Array α}
    (hrow : row.size = g.peaks.length) :
    c.fillRow centers (pre ++ row :: post).toArray (i, pre.length) =
      some (pre ++ g.row centers.toList i :: post).toArray := by
  obtain ⟨hnearest, hbound⟩ := h.nearest i hi
  simp only [fillRow, h.weights_eq hi, Option.bind_eq_bind, Option.bind_some]
  generalize hweights : (centers.toList.map fun center =>
    center.energy * g.fraction i center.x center.y) = weights
  have hlength : row.size = weights.length := by
    rw [← hweights, List.length_map, Array.length_toList, hrow, hcenters]
  rw [ShowerTrack.Sharing.row, hweights]
  simp only
  split
  · have hput := foldlM_put (g := (· / Scalar.sum weights)) hlength
    rw [foldlM_edit_one (f := fun (w : α × Nat) row => put row w.2 (w.1 / Scalar.sum weights)),
      hput]
    rfl
  · have hunit : put (row.map fun _ => (0 : α)) (g.nearest i) 1 =
        some ((Array.range g.peaks.length).map fun k => if k = g.nearest i then 1 else 0) := by
      rw [put_eq (by simpa [hrow] using hbound)]
      congr 1
      apply Array.ext
      · simp [hrow]
      · intro k hk _
        have hbelow : k < (row.map fun _ => (0 : α)).size := by simpa using hk
        simp [Array.getElem_setIfInBounds hbelow, eq_comm]
    rw [hnearest, Option.bind_some, edit_middle, Option.map_some, Option.bind_some, edit_middle,
      hunit]
    rfl

theorem Finds.fillRows_eq {shares : Array (Array α)} (hsize : shares.size = g.items.length)
    (hrows : ∀ row ∈ shares, row.size = g.peaks.length) :
    c.items.zipIdx.foldlM (c.fillRow centers) shares =
      some (g.items.map (g.row centers.toList)).toArray := by
  rw [h.items]
  exact foldlM_fill hsize hrows fun i hi pre row post hrow =>
    h.fillRow_eq hcenters hi pre post hrow

theorem Finds.weigh_eq (peak : ι) {k : Nat} (hk : k < g.peaks.length) (m : Moment α) {x : ι × Nat}
    (hx : x ∈ g.items.zipIdx) :
    c.weigh (g.items.map (g.row centers.toList)).toArray peak k m x =
      some (Moment.add g peak k m (x.1, g.row centers.toList x.1)) := by
  have hitem : g.items[x.2]? = some x.1 := List.mem_zipIdx_iff_getElem?.mp hx
  have hrow : (g.items.map (g.row centers.toList)).toArray[x.2]? =
      some (g.row centers.toList x.1) := by
    rw [List.getElem?_toArray, List.getElem?_map, hitem]
    rfl
  have hshare : (g.row centers.toList x.1)[k]? =
      some ((g.row centers.toList x.1).getD k 0) := by
    have hlist : centers.toList.length = g.peaks.length := by simpa using hcenters
    have hsize := ShowerTrack.Sharing.size_row hlist x.1
    simp [hsize, hk]
  rw [weigh, h.itemEnergy x.1 (List.mem_of_getElem? hitem), hrow]
  simp only [Option.bind_eq_bind, Option.bind_some, hshare, h.inCore, h.position]
  rfl

theorem Finds.recenter_eq {peak : ι} (pre post : List (Center α)) (center : Center α)
    (hk : pre.length < g.peaks.length) :
    c.recenter (g.items.map (g.row centers.toList)).toArray (pre ++ center :: post).toArray
        (peak, pre.length) =
      some (pre ++ g.recenter (g.rows centers.toList) peak pre.length center :: post).toArray := by
  have hmoment := (foldlM_eq (P := fun _ => True) (fun m _ x hx =>
    ⟨h.weigh_eq hcenters peak hk m hx, trivial⟩) (s := ⟨0, 0, 0, 0⟩) trivial).1
  have hrows : g.items.zipIdx.foldl (fun m x =>
      Moment.add g peak pre.length m (x.1, g.row centers.toList x.1)) ⟨0, 0, 0, 0⟩ =
        (g.rows centers.toList).foldl (Moment.add g peak pre.length) ⟨0, 0, 0, 0⟩ := by
    rw [ShowerTrack.Sharing.rows, List.foldl_map]
    conv_rhs => rw [← List.zipIdx_map_fst 0 g.items, List.foldl_map]
  simp only [recenter, h.items, hmoment, hrows, Option.bind_eq_bind, Option.bind_some,
    ShowerTrack.Sharing.recenter]
  split
  · exact edit_middle pre post center _
  · exact edit_middle pre post center _

theorem Finds.pass_eq {shares : Array (Array α)} (hsize : shares.size = g.items.length)
    (hrows : ∀ row ∈ shares, row.size = g.peaks.length) : c.pass centers shares =
      some ((g.recenterAll (g.rows centers.toList) centers.toList).toArray,
        (g.items.map (g.row centers.toList)).toArray) := by
  have hcentered := foldlM_replace (P := fun _ => True)
    (f := c.recenter (g.items.map (g.row centers.toList)).toArray)
    (g := fun peak k center => g.recenter (g.rows centers.toList) peak k center)
    (l := g.peaks) [] centers.toList (by simpa using hcenters) (fun _ _ => trivial)
    fun peak pre center post hpeak _ => h.recenter_eq hcenters pre post center
      (List.mem_zipIdx' hpeak).1
  simp only [List.length_nil, List.nil_append, Array.toArray_toList] at hcentered
  simp only [pass, h.fillRows_eq hcenters hsize hrows, h.peaks, hcentered, Option.bind_eq_bind,
    Option.bind_some]
  rfl

end Passes

variable {c : Sharing α ι} {g : ShowerTrack.Sharing α ι}

theorem Finds.passes_eq (h : c.Finds g) (n : Nat) {centers : Array (Center α)}
    (hcenters : centers.size = g.peaks.length) {shares : Array (Array α)}
    (hsize : shares.size = g.items.length) (hrows : ∀ row ∈ shares, row.size = g.peaks.length) :
    c.passes (n + 1) centers shares =
      some ((g.rowsAfter n centers.toList).map Prod.snd).toArray := by
  induction n generalizing centers shares with
  | zero =>
    rw [passes, h.pass_eq hcenters hsize hrows, ShowerTrack.Sharing.rowsAfter,
      ShowerTrack.Sharing.rows, List.map_map]
    rfl
  | succ n ih =>
    have hlist : centers.toList.length = g.peaks.length := by simpa using hcenters
    rw [passes, h.pass_eq hcenters hsize hrows, ShowerTrack.Sharing.rowsAfter]
    simp only [Option.bind_eq_bind, Option.bind_some]
    apply ih
    · simpa using ShowerTrack.Sharing.length_recenterAll (g.rows centers.toList) hlist
    · simp
    · intro row hrow
      obtain ⟨i, _, rfl⟩ := List.mem_map.mp (List.mem_toArray.mp hrow)
      exact ShowerTrack.Sharing.size_row hlist i

theorem Finds.shares_eq (h : c.Finds g) (n : Nat) :
    c.shares n = some ((g.shares n).map Prod.snd).toArray := by
  have hpasses : Nat.max n 1 = n - 1 + 1 := by
    rcases Nat.eq_zero_or_pos n with rfl | hpos
    · rfl
    · exact (Nat.max_eq_left hpos).trans (Nat.sub_add_cancel hpos).symm
  have hstart : g.start.length = g.peaks.length := by simp [ShowerTrack.Sharing.start]
  rw [shares, h.start_eq, hpasses]
  apply h.passes_eq (n - 1)
  · simpa using hstart
  · simp [h.items]
  · intro row hrow
    obtain ⟨_, rfl⟩ := Array.mem_replicate.mp hrow
    simp [h.peaks]

end Sharing

end ShowerTrack.Checked
